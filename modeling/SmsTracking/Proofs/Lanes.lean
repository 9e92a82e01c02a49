import SmsTracking.Program.Exchange
import SmsTracking.Routing.Completion

/-!
Jobs that run side by side, as many at a time as there are lanes. Those that can go on stand in a
line, of which the first one asks something, or stops and waits, or ends; one that need not wait any
more goes to the end of the line, and so does the one that starts because another has ended. Main
statements: what such courses come to are the talks of the jobs in the orders of `completions`
(`course_iff`), which is the order of the jobs where none of them waits (`labels_in_turn`), and as
long as no job breaks off all of them can end (`exists_ending`).
-/

namespace SmsTracking

variable {ι α : Type}

/-- A job that is running. -/
structure Job (ι α : Type) where
  label : ι
  /-- What it has asked so far, with the answers. -/
  exchanges : List Exchange := []
  rest : Program α

structure Finished (ι α : Type) where
  label : ι
  exchanges : List Exchange
  answer : α

def Job.start (program : ι → Program α) (label : ι) : Job ι α := { label, rest := program label }

inductive LaneEvent where
  | ask
  | suspend
  | resume
  | finish
deriving DecidableEq

structure Lanes (ι α : Type) where
  /-- Those that have not started. -/
  waiting : List ι
  /-- Those that are running and can go on. -/
  ready : List (Job ι α)
  /-- Those that are running and wait. -/
  suspended : List (Job ι α) := []
  /-- In the order in which they ended. -/
  ended : List (Finished ι α) := []

/-! The jobs that can end next -/

theorem pick_of_split {a job : ι} {as front back : List ι}
    (split : a :: as = front ++ job :: back) :
    pick front.length a as = (job, front ++ back) := by
  induction front generalizing a as with
  | nil =>
      cases split
      rfl
  | cons first front ih =>
      obtain ⟨rfl, rest⟩ := List.cons.inj split
      cases as with
      | nil => simp at rest
      | cons b bs => rw [List.length_cons, pick, ih rest, List.cons_append]

theorem exists_split_pick (i : Nat) (a : ι) (as : List ι) :
    ∃ front back, front.length ≤ i ∧ a :: as = front ++ (pick i a as).1 :: back ∧
      (pick i a as).2 = front ++ back := by
  fun_induction pick i a as with
  | case1 a as => exact ⟨[], as, Nat.le_refl _, rfl, rfl⟩
  | case2 i a => exact ⟨[], [], Nat.zero_le _, rfl, rfl⟩
  | case3 i a b as ih =>
      obtain ⟨front, back, early, split, others⟩ := ih
      refine ⟨a :: front, back, Nat.succ_le_succ early, ?_, ?_⟩
      · rw [split, List.cons_append]
      · rw [others, List.cons_append]

theorem completions_append_cons {limit : Nat} {front : List ι}
    (within : front.length < max limit 1) (picks : List Nat) (job : ι) (back : List ι) :
    completions limit (front.length :: picks) (front ++ job :: back) =
      job :: completions limit picks (front ++ back) := by
  cases split : front ++ job :: back with
  | nil => simp at split
  | cons a as =>
      rw [completions, List.headD_cons, Nat.mod_eq_of_lt within, pick_of_split split.symm,
        List.tail_cons]

theorem exists_split_of_completions {limit : Nat} {picks : List Nat} {jobs labels : List ι}
    {label : ι} (order : label :: labels = completions limit picks jobs) :
    ∃ front back, front.length < max limit 1 ∧ jobs = front ++ label :: back ∧
      labels = completions limit picks.tail (front ++ back) := by
  cases jobs with
  | nil =>
      rw [completions] at order
      cases order
  | cons a as =>
      rw [completions] at order
      obtain ⟨rfl, rfl⟩ := List.cons.inj order
      have positive : 0 < max limit 1 := Nat.lt_of_lt_of_le Nat.one_pos (Nat.le_max_right ..)
      obtain ⟨front, back, early, split, others⟩ :=
        exists_split_pick (picks.headD 0 % max limit 1) a as
      refine ⟨front, back, Nat.lt_of_le_of_lt early (Nat.mod_lt _ positive), split, ?_⟩
      rw [others]

namespace Lanes

variable {program : ι → Program α} {event : LaneEvent} {s s' : Lanes ι α}

/-- The first jobs have started. At least one job runs at a time. -/
def begin (program : ι → Program α) (limit : Nat) (jobs : List ι) : Lanes ι α where
  waiting := jobs.drop (max limit 1)
  ready := (jobs.take (max limit 1)).map (Job.start program)

theorem begin_all (program : ι → Program α) (limit : Nat) (jobs : List ι) :
    jobs.take (max limit 1) ++ (begin program limit jobs).waiting = jobs :=
  List.take_append_drop (max limit 1) jobs

def allEnded (ended : List (Finished ι α)) : Lanes ι α := { waiting := [], ready := [], ended }

inductive Step (program : ι → Program α) : LaneEvent → Lanes ι α → Lanes ι α → Prop
  | ask {waiting : List ι} {label : ι} {es : List Exchange} {r : Request}
      {next : r.Answer → Program α} {jobs suspended : List (Job ι α)}
      {ended : List (Finished ι α)} (answer : r.Answer) :
      Step program .ask ⟨waiting, ⟨label, es, .ask r next⟩ :: jobs, suspended, ended⟩
        ⟨waiting, ⟨label, es ++ [⟨r, answer⟩], next answer⟩ :: jobs, suspended, ended⟩
  | suspend {waiting : List ι} {job : Job ι α} {jobs suspended : List (Job ι α)}
      {ended : List (Finished ι α)} :
      Step program .suspend ⟨waiting, job :: jobs, suspended, ended⟩
        ⟨waiting, jobs, suspended ++ [job], ended⟩
  | resume {waiting : List ι} {ready : List (Job ι α)} (before : List (Job ι α)) {job : Job ι α}
      {after : List (Job ι α)} {ended : List (Finished ι α)} :
      Step program .resume ⟨waiting, ready, before ++ job :: after, ended⟩
        ⟨waiting, ready ++ [job], before ++ after, ended⟩
  | finish {waiting : List ι} {label : ι} {es : List Exchange} {answer : α}
      {jobs suspended : List (Job ι α)} {ended : List (Finished ι α)} :
      Step program .finish ⟨waiting, ⟨label, es, .done answer⟩ :: jobs, suspended, ended⟩
        ⟨waiting.tail, jobs ++ (waiting.take 1).map (Job.start program), suspended,
          ended ++ [⟨label, es, answer⟩]⟩

inductive Steps (program : ι → Program α) : List LaneEvent → Lanes ι α → Lanes ι α → Prop
  | nil (s : Lanes ι α) : Steps program [] s s
  | cons {event : LaneEvent} {events : List LaneEvent} {s s' s'' : Lanes ι α}
      (step : Step program event s s') (steps : Steps program events s' s'') :
      Steps program (event :: events) s s''

theorem Steps.append {events more : List LaneEvent} {s'' : Lanes ι α}
    (first : Steps program events s s') (second : Steps program more s' s'') :
    Steps program (events ++ more) s s'' := by
  induction first with
  | nil => exact second
  | cons step _ ih => exact .cons step (ih second)

/-- The jobs start one after the other, and with these events all of them come to their ends. -/
def Course (program : ι → Program α) (limit : Nat) (jobs : List ι) (events : List LaneEvent)
    (finished : List (Finished ι α)) : Prop :=
  Steps program events (begin program limit jobs) (allEnded finished)

/-- All that have started and not ended. -/
def running (s : Lanes ι α) : List (Job ι α) := s.ready ++ s.suspended

/-- What an event does to the running jobs, whichever of them wait. -/
inductive Effect (program : ι → Program α) (s s' : Lanes ι α) : Prop
  | asked {label : ι} {es : List Exchange} {r : Request} {next : r.Answer → Program α}
      {answer : r.Answer} {others : List (Job ι α)}
      (before : s.running.Perm (⟨label, es, .ask r next⟩ :: others))
      (after : s'.running.Perm (⟨label, es ++ [⟨r, answer⟩], next answer⟩ :: others))
      (waiting : s'.waiting = s.waiting) (ended : s'.ended = s.ended)
  | moved (running : s'.running.Perm s.running) (waiting : s'.waiting = s.waiting)
      (ended : s'.ended = s.ended)
  | finished {label : ι} {es : List Exchange} {answer : α} {others : List (Job ι α)}
      (before : s.running.Perm (⟨label, es, .done answer⟩ :: others))
      (after : s'.running.Perm (others ++ (s.waiting.take 1).map (Job.start program)))
      (waiting : s'.waiting = s.waiting.tail) (ended : s'.ended = s.ended ++ [⟨label, es, answer⟩])

theorem Step.effect (step : Step program event s s') : Effect program s s' := by
  cases step with
  | ask answer => exact .asked (.refl _) (.refl _) rfl rfl
  | @suspend _ job jobs suspended =>
      refine .moved ?_ rfl rfl
      show (jobs ++ (suspended ++ [job])).Perm (job :: (jobs ++ suspended))
      rw [← List.append_assoc]
      exact List.perm_append_singleton ..
  | @resume _ ready before job after =>
      refine .moved ?_ rfl rfl
      show (ready ++ [job] ++ (before ++ after)).Perm (ready ++ (before ++ job :: after))
      rw [List.append_assoc]
      exact List.Perm.append_left ready (@List.perm_middle _ job before after).symm
  | @finish waiting label es answer jobs suspended =>
      refine .finished (.refl _) ?_ rfl rfl
      show (jobs ++ (waiting.take 1).map _ ++ suspended).Perm
        (jobs ++ suspended ++ (waiting.take 1).map _)
      rw [List.append_assoc, List.append_assoc]
      exact List.Perm.append_left jobs List.perm_append_comm

/-! What the jobs ask -/

/-- What jobs have asked leads from their programs to where they are. -/
structure Sound (program : ι → Program α) (s : Lanes ι α) : Prop where
  running : ∀ job ∈ s.running, ∀ es o, job.rest.Talk es o →
    (program job.label).Talk (job.exchanges ++ es) o
  ended : ∀ f ∈ s.ended, (program f.label).Talk f.exchanges (.done f.answer)

theorem sound_begin (program : ι → Program α) (limit : Nat) (jobs : List ι) :
    Sound program (begin program limit jobs) where
  running job mem es o talk := by
    simp only [begin, Lanes.running, List.append_nil] at mem
    obtain ⟨label, _, rfl⟩ := List.mem_map.mp mem
    exact talk
  ended _ mem := nomatch mem

theorem Sound.step (sound : Sound program s) (step : Step program event s s') :
    Sound program s' := by
  cases step.effect with
  | asked before after _ ended =>
      refine ⟨fun job mem => ?_, ended ▸ sound.ended⟩
      rcases List.mem_cons.mp (after.mem_iff.mp mem) with rfl | other
      · intro more o talk
        rw [List.append_assoc]
        exact sound.running _ (before.mem_iff.mpr List.mem_cons_self) _ o (.ask talk)
      · exact sound.running job (before.mem_iff.mpr (List.mem_cons_of_mem _ other))
  | moved running _ ended =>
      exact ⟨fun job mem => sound.running job (running.mem_iff.mp mem), ended ▸ sound.ended⟩
  | @finished label es answer others before after _ ended =>
      constructor
      · intro job mem
        rcases List.mem_append.mp (after.mem_iff.mp mem) with other | new
        · exact sound.running job (before.mem_iff.mpr (List.mem_cons_of_mem _ other))
        · obtain ⟨_, _, rfl⟩ := List.mem_map.mp new
          exact fun es o talk => talk
      · intro f mem
        rw [ended] at mem
        rcases List.mem_append.mp mem with earlier | last
        · exact sound.ended f earlier
        · obtain rfl := List.mem_singleton.mp last
          have talk := sound.running _ (before.mem_iff.mpr List.mem_cons_self) [] _ (.done answer)
          exact List.append_nil es ▸ talk

theorem Sound.steps {events : List LaneEvent} (sound : Sound program s)
    (steps : Steps program events s s') : Sound program s' := by
  induction steps with
  | nil => exact sound
  | cons step _ ih => exact ih (sound.step step)

/-! In which order they end -/

/-- These are running, in the order in which they started, and no lane is free as long as others
have not started. -/
structure Laid (limit : Nat) (started : List ι) (s : Lanes ι α) : Prop where
  running : (s.running.map (·.label)).Perm started
  few : started.length ≤ max limit 1
  full : s.waiting ≠ [] → started.length = max limit 1

theorem laid_begin (program : ι → Program α) (limit : Nat) (jobs : List ι) :
    Laid limit (jobs.take (max limit 1)) (begin program limit jobs) where
  running := by
    simp only [begin, Lanes.running, List.append_nil, List.map_map]
    exact .of_eq (List.map_id _)
  few := List.length_take_le ..
  full left := by
    have more : jobs.drop (max limit 1) ≠ [] := left
    rw [List.length_take, Nat.min_eq_left]
    exact Nat.le_of_lt (List.length_lt_of_drop_ne_nil more)

/-! One of the running jobs ends, and the first of those that wait starts -/

theorem append_take_one_append_tail (running waiting : List ι) :
    running ++ waiting.take 1 ++ waiting.tail = running ++ waiting := by
  rw [List.append_assoc, ← List.drop_one, List.take_append_drop]

theorem length_refill {waiting : List ι} (more : waiting.tail ≠ []) (front back : List ι)
    (label : ι) :
    (front ++ back ++ waiting.take 1).length = (front ++ label :: back).length := by
  cases waiting with
  | nil => exact absurd rfl more
  | cons next later => simp

theorem ne_nil_of_tail {waiting : List ι} (more : waiting.tail ≠ []) : waiting ≠ [] := by
  rintro rfl
  exact more rfl

/-- An event leaves the running jobs as they are, or one of them ends and another one starts. -/
theorem Laid.step {limit : Nat} {started : List ι} (laid : Laid limit started s)
    (step : Step program event s s') :
    (Laid limit started s' ∧ s'.waiting = s.waiting ∧ s'.ended = s.ended) ∨
    ∃ front f back, front.length < max limit 1 ∧ started = front ++ f.label :: back ∧
      Laid limit (front ++ back ++ s.waiting.take 1) s' ∧ s'.waiting = s.waiting.tail ∧
      s'.ended = s.ended ++ [f] := by
  cases step.effect with
  | asked before after waiting ended =>
      refine .inl ⟨⟨?_, laid.few, waiting ▸ laid.full⟩, waiting, ended⟩
      exact (after.map _).trans ((before.map _).symm.trans laid.running)
  | moved running waiting ended =>
      refine .inl ⟨⟨?_, laid.few, waiting ▸ laid.full⟩, waiting, ended⟩
      exact (running.map _).trans laid.running
  | @finished label es answer others before after waiting ended =>
      have left : (label :: others.map (·.label)).Perm started :=
        (before.map _).symm.trans laid.running
      -- Where the job stands among those that started is how it is picked.
      obtain ⟨front, back, rfl⟩ := List.append_of_mem (left.mem_iff.mp List.mem_cons_self)
      have rest : (others.map (·.label)).Perm (front ++ back) :=
        (left.trans List.perm_middle).cons_inv
      have few : (front ++ back).length + 1 ≤ max limit 1 := by
        simpa [Nat.add_assoc] using laid.few
      refine .inr ⟨front, ⟨label, es, answer⟩, back, ?_, rfl, ⟨?_, ?_, fun more => ?_⟩, waiting,
        ended⟩
      · rw [List.length_append] at few
        omega
      · refine (after.map _).trans ?_
        rw [List.map_append, List.map_map]
        exact rest.append (.of_eq (List.map_id _))
      · rw [List.length_append]
        exact Nat.le_trans (Nat.add_le_add_left (List.length_take_le ..) _) few
      · rw [waiting] at more
        rw [length_refill more front back label]
        exact laid.full (ne_nil_of_tail more)

/-- The running jobs are the first of those that have not ended, so that one of these is next. -/
theorem labels_of_steps {limit : Nat} {events : List LaneEvent} {started : List ι}
    {finished : List (Finished ι α)} (laid : Laid limit started s)
    (steps : Steps program events s (allEnded finished)) :
    ∃ picks, finished.map (·.label) =
      s.ended.map (·.label) ++ completions limit picks (started ++ s.waiting) := by
  generalize last : allEnded finished = t at steps
  induction steps generalizing started with
  | nil s =>
      subst last
      obtain rfl := List.perm_nil.mp laid.running.symm
      exact ⟨[], by simp [allEnded, completions]⟩
  | cons step _ ih =>
      rcases laid.step step with ⟨laid', waiting, ended⟩ |
        ⟨front, f, back, within, rfl, laid', waiting, ended⟩
      · obtain ⟨picks, order⟩ := ih laid' last
        exact ⟨picks, by rw [order, waiting, ended]⟩
      · obtain ⟨picks, order⟩ := ih laid' last
        refine ⟨front.length :: picks, ?_⟩
        rw [order, waiting, ended, append_take_one_append_tail, List.append_assoc front,
          List.append_assoc front, List.cons_append, completions_append_cons within,
          List.map_append, List.append_assoc]
        rfl

/-! Every order comes about -/

theorem steps_suspend (program : ι → Program α) (waiting : List ι)
    (jobs ready suspended : List (Job ι α)) (ended : List (Finished ι α)) :
    ∃ events, Steps program events ⟨waiting, jobs ++ ready, suspended, ended⟩
      ⟨waiting, ready, suspended ++ jobs, ended⟩ := by
  induction jobs generalizing suspended with
  | nil => exact ⟨[], (List.append_nil suspended).symm ▸ .nil _⟩
  | cons job jobs ih =>
      obtain ⟨events, steps⟩ := ih (suspended ++ [job])
      rw [List.append_assoc] at steps
      exact ⟨.suspend :: events, .cons .suspend steps⟩

theorem steps_resume (program : ι → Program α) (waiting : List ι)
    (ready suspended : List (Job ι α)) (ended : List (Finished ι α)) :
    ∃ events, Steps program events ⟨waiting, ready, suspended, ended⟩
      ⟨waiting, ready ++ suspended, [], ended⟩ := by
  induction suspended generalizing ready with
  | nil => exact ⟨[], (List.append_nil ready).symm ▸ .nil _⟩
  | cons job jobs ih =>
      obtain ⟨events, steps⟩ := ih (ready ++ [job])
      rw [List.append_assoc] at steps
      exact ⟨.resume :: events, .cons (.resume []) steps⟩

theorem steps_ask {p : Program α} {es : List Exchange} {answer : α}
    (talk : p.Talk es (.done answer)) (program : ι → Program α) (waiting : List ι) (label : ι)
    (before : List Exchange) (jobs suspended : List (Job ι α)) (ended : List (Finished ι α)) :
    ∃ events, Steps program events ⟨waiting, ⟨label, before, p⟩ :: jobs, suspended, ended⟩
      ⟨waiting, ⟨label, before ++ es, .done answer⟩ :: jobs, suspended, ended⟩ := by
  generalize reached : Outcome.done answer = o at talk
  induction talk generalizing before with
  | done a =>
      cases reached
      exact ⟨[], (List.append_nil before).symm ▸ .nil _⟩
  | abort text => cases reached
  | ask rest ih =>
      obtain ⟨events, steps⟩ := ih (before ++ [_]) reached
      rw [List.append_assoc] at steps
      exact ⟨.ask :: events, .cons (.ask _) steps⟩

/-- Any of the running jobs can be the next one to end, while those before it wait. -/
theorem steps_finish {p : Program α} {es : List Exchange} {answer : α}
    (talk : p.Talk es (.done answer)) (program : ι → Program α) (waiting : List ι) (label : ι)
    (exchanges : List Exchange) (before after : List (Job ι α)) (ended : List (Finished ι α)) :
    ∃ events, Steps program events ⟨waiting, before ++ ⟨label, exchanges, p⟩ :: after, [], ended⟩
      ⟨waiting.tail, after ++ (waiting.take 1).map (Job.start program) ++ before, [],
        ended ++ [⟨label, exchanges ++ es, answer⟩]⟩ := by
  obtain ⟨first, aside⟩ := steps_suspend program waiting before (⟨label, exchanges, p⟩ :: after) []
    ended
  obtain ⟨second, asked⟩ := steps_ask talk program waiting label exchanges after before ended
  obtain ⟨third, back⟩ := steps_resume program waiting.tail
    (after ++ (waiting.take 1).map (Job.start program)) before
    (ended ++ [⟨label, exchanges ++ es, answer⟩])
  exact ⟨_, aside.append (asked.append (.cons .finish back))⟩

/-- None of the running jobs has asked anything, and all of them can go on. -/
structure Fresh (program : ι → Program α) (limit : Nat) (started : List ι) (s : Lanes ι α) :
    Prop where
  ready : s.ready.Perm (started.map (Job.start program))
  suspended : s.suspended = []
  full : s.waiting ≠ [] → started.length = max limit 1

/-- A job that is near enough to the front has started. -/
theorem split_of_full {limit : Nat} {started waiting front back : List ι} {label : ι}
    (full : waiting ≠ [] → started.length = max limit 1) (within : front.length < max limit 1)
    (split : started ++ waiting = front ++ label :: back) :
    ∃ rest, started = front ++ label :: rest ∧ back = rest ++ waiting := by
  rcases List.append_eq_append_iff.mp split with ⟨gap, rfl, rfl⟩ | ⟨rest, rfl, tail⟩
  · have many := full (by simp)
    rw [List.length_append] at within
    omega
  · cases rest with
    | nil =>
        have many := full (by rw [← List.nil_append waiting, ← tail]; exact nofun)
        rw [List.append_nil] at many
        omega
    | cons first rest =>
        obtain ⟨rfl, rfl⟩ := List.cons.inj tail
        exact ⟨rest, rfl, rfl⟩

/-- One of them ends, and those that are running then have not asked anything either. -/
theorem Fresh.exists_finish {limit : Nat} {front back : List ι} {f : Finished ι α}
    (fresh : Fresh program limit (front ++ f.label :: back) s)
    (talk : (program f.label).Talk f.exchanges (.done f.answer)) :
    ∃ events s', Steps program events s s' ∧
      Fresh program limit (front ++ back ++ s.waiting.take 1) s' ∧
      s'.waiting = s.waiting.tail ∧ s'.ended = s.ended ++ [f] := by
  obtain ⟨waiting, ready, suspended, ended⟩ := s
  obtain ⟨unchanged, rfl, full⟩ := fresh
  have running : Job.start program f.label ∈ ready :=
    unchanged.mem_iff.mpr (List.mem_map_of_mem (by simp))
  obtain ⟨before, after, rfl⟩ := List.append_of_mem running
  obtain ⟨events, ends⟩ := steps_finish talk program waiting f.label [] before after ended
  have others : (before ++ after).Perm ((front ++ back).map (Job.start program)) := by
    rw [List.map_append, List.map_cons] at unchanged
    rw [List.map_append]
    exact (List.perm_middle.symm.trans (unchanged.trans List.perm_middle)).cons_inv
  refine ⟨events, _, ends, ⟨?_, rfl, fun more => ?_⟩, rfl, rfl⟩
  · rw [List.map_append]
    refine List.Perm.trans List.perm_append_comm ?_
    rw [← List.append_assoc]
    exact others.append_right _
  · rw [length_refill more front back f.label]
    exact full (ne_nil_of_tail more)

theorem exists_steps {limit : Nat} {picks : List Nat} {started : List ι}
    {finished : List (Finished ι α)} (fresh : Fresh program limit started s)
    (order : finished.map (·.label) = completions limit picks (started ++ s.waiting))
    (talks : ∀ f ∈ finished, (program f.label).Talk f.exchanges (.done f.answer)) :
    ∃ events, Steps program events s (allEnded (s.ended ++ finished)) := by
  induction finished generalizing picks started s with
  | nil =>
      obtain ⟨waiting, ready, suspended, ended⟩ := s
      obtain ⟨unchanged, rfl, _⟩ := fresh
      have none := (completions_perm limit picks (started ++ waiting)).symm
      rw [← order] at none
      obtain ⟨rfl, rfl⟩ := List.append_eq_nil_iff.mp none.eq_nil
      obtain rfl := unchanged.eq_nil
      exact ⟨[], (List.append_nil ended).symm ▸ .nil _⟩
  | cons f finished ih =>
      obtain ⟨talk, talks⟩ := List.forall_mem_cons.mp talks
      obtain ⟨front, back, within, split, later⟩ := exists_split_of_completions order
      obtain ⟨back, rfl, rfl⟩ := split_of_full fresh.full within split
      obtain ⟨first, s', ends, fresh', waiting, ended⟩ := fresh.exists_finish talk
      have order' : finished.map (·.label) =
          completions limit picks.tail (front ++ back ++ s.waiting.take 1 ++ s'.waiting) := by
        rw [waiting, append_take_one_append_tail, List.append_assoc]
        exact later
      obtain ⟨rest, steps⟩ := ih fresh' order' talks
      rw [ended, List.append_assoc] at steps
      exact ⟨first ++ rest, ends.append steps⟩

theorem course_iff (program : ι → Program α) {limit : Nat} {jobs : List ι}
    {finished : List (Finished ι α)} :
    (∃ events, Course program limit jobs events finished) ↔
      (∃ picks, finished.map (·.label) = completions limit picks jobs) ∧
        ∀ f ∈ finished, (program f.label).Talk f.exchanges (.done f.answer) := by
  constructor
  · rintro ⟨events, course⟩
    obtain ⟨picks, order⟩ := labels_of_steps (laid_begin program limit jobs) course
    refine ⟨⟨picks, ?_⟩, ((sound_begin program limit jobs).steps course).ended⟩
    rw [order, begin_all]
    rfl
  · rintro ⟨⟨picks, order⟩, talks⟩
    have fresh : Fresh program limit (jobs.take (max limit 1)) (begin program limit jobs) :=
      ⟨.refl _, rfl, (laid_begin program limit jobs).full⟩
    exact exists_steps fresh (order.trans (congrArg _ (begin_all program limit jobs).symm)) talks

/-! Jobs of which none waits -/

theorem Steps.labels_in_turn {events : List LaneEvent} {finished : List (Finished ι α)}
    (steps : Steps program events s (allEnded finished)) (none : .suspend ∉ events)
    (awake : s.suspended = []) :
    finished.map (·.label) =
      s.ended.map (·.label) ++ (s.ready.map (·.label) ++ s.waiting) := by
  generalize last : allEnded finished = t at steps
  induction steps with
  | nil s =>
      subst last
      simp [allEnded]
  | cons step _ ih =>
      obtain ⟨other, rest⟩ := not_or.mp (fun mem => none (List.mem_cons.mpr mem))
      cases step with
      | ask answer => exact ih rest awake last
      | suspend => exact absurd rfl other
      | resume => cases (List.append_eq_nil_iff.mp awake).2
      | @finish waiting =>
          rw [ih rest awake last]
          simp [Job.start, Function.comp_def, ← List.drop_one]

theorem Course.labels_in_turn {limit : Nat} {jobs : List ι} {events : List LaneEvent}
    {finished : List (Finished ι α)} (course : Course program limit jobs events finished)
    (single : limit ≤ 1 ∨ .suspend ∉ events) : finished.map (·.label) = jobs := by
  rcases single with one | none
  · obtain ⟨⟨picks, order⟩, _⟩ := (course_iff program).mp ⟨events, course⟩
    rw [order, completions_of_limit_le_one one]
  · rw [Steps.labels_in_turn course none rfl, begin, List.map_map]
    exact (congrArg (· ++ _) (List.map_id _)).trans (List.take_append_drop _ jobs)

/-! All jobs can end -/

theorem Laid.steps {limit : Nat} {events : List LaneEvent} {started : List ι}
    (laid : Laid limit started s) (steps : Steps program events s s') :
    ∃ started', Laid limit started' s' ∧ started' ++ s'.waiting ⊆ started ++ s.waiting := by
  induction steps generalizing started with
  | nil => exact ⟨started, laid, List.Subset.refl _⟩
  | cons step _ ih =>
      rcases laid.step step with ⟨laid', waiting, _⟩ | ⟨front, f, back, _, rfl, laid', waiting, _⟩
      · obtain ⟨started', laid'', left⟩ := ih laid'
        exact ⟨started', laid'', waiting ▸ left⟩
      · obtain ⟨started', laid'', left⟩ := ih laid'
        rw [waiting, append_take_one_append_tail] at left
        have fewer := ((List.sublist_cons_self f.label back).append_left front).append_right
        exact ⟨started', laid'', fun _ mem => (fewer _).subset (left mem)⟩

/-- Those that have not ended. -/
def left (s : Lanes ι α) : Nat := s.running.length + s.waiting.length

theorem Laid.waiting_eq_nil {limit : Nat} {started : List ι} (laid : Laid limit started s)
    (idle : s.running = []) : s.waiting = [] := by
  obtain rfl : started = [] := by
    have labels := laid.running
    rw [idle] at labels
    exact labels.symm.eq_nil
  cases queue : s.waiting with
  | nil => rfl
  | cons next later =>
      have full := laid.full (queue ▸ List.cons_ne_nil next later)
      rw [List.length_nil] at full
      omega

/-- As long as jobs are running, one of them can end. -/
theorem Sound.exists_finish (sound : Sound program s) (busy : s.running ≠ [])
    (unbroken : ∀ job ∈ s.running, (program job.label).Unbroken) :
    ∃ events s', Steps program events s s' ∧ s.left = s'.left + 1 := by
  obtain ⟨waiting, ready, suspended, ended⟩ := s
  obtain ⟨job, jobs, line⟩ : ∃ job jobs, ready ++ suspended = job :: jobs :=
    List.exists_cons_of_ne_nil busy
  have first : job ∈ ready ++ suspended := line ▸ List.mem_cons_self
  have rest : job.rest.Unbroken := fun es text talk =>
    unbroken job first _ text (sound.running job first es _ talk)
  obtain ⟨es, answer, talk⟩ := rest.exists_talk
  obtain ⟨woken, awake⟩ := steps_resume program waiting ready suspended ended
  obtain ⟨asked, ends⟩ := steps_finish talk program waiting job.label job.exchanges [] jobs ended
  rw [line] at awake
  refine ⟨_, _, awake.append ends, ?_⟩
  -- One has ended, and the one that may have started was left before.
  rw [left, left, Lanes.running, Lanes.running, line]
  cases waiting with
  | nil => simp
  | cons next later =>
      simp only [List.length_cons, List.length_append, List.length_map, List.length_take,
        List.length_nil, List.tail_cons]
      omega

/-- Wherever they are, all of them can still end if none breaks off. -/
theorem Laid.exists_ending {limit : Nat} {started : List ι} (laid : Laid limit started s)
    (sound : Sound program s)
    (unbroken : ∀ label ∈ started ++ s.waiting, (program label).Unbroken) :
    ∃ events finished, Steps program events s (allEnded finished) := by
  induction size : s.left generalizing s started with
  | zero =>
      obtain ⟨waiting, ready, suspended, ended⟩ := s
      obtain ⟨none, nobody⟩ := Nat.add_eq_zero_iff.mp size
      obtain ⟨rfl, rfl⟩ := List.append_eq_nil_iff.mp (List.length_eq_zero_iff.mp none)
      obtain rfl := List.length_eq_zero_iff.mp nobody
      exact ⟨[], ended, .nil _⟩
  | succ n ih =>
      have busy : s.running ≠ [] := fun idle => by
        rw [left, idle, laid.waiting_eq_nil idle] at size
        cases size
      obtain ⟨events, s', steps, fewer⟩ := sound.exists_finish busy fun job mem =>
        unbroken _ (List.mem_append_left _ (laid.running.mem_iff.mp (List.mem_map_of_mem mem)))
      obtain ⟨started', laid', among⟩ := laid.steps steps
      obtain ⟨more, finished, ending⟩ := ih laid' (sound.steps steps)
        (fun label mem => unbroken label (among mem)) (Nat.succ.inj (fewer.symm.trans size))
      exact ⟨_, finished, steps.append ending⟩

theorem exists_ending {limit : Nat} {jobs : List ι} {events : List LaneEvent}
    (unbroken : ∀ label ∈ jobs, (program label).Unbroken)
    (steps : Steps program events (begin program limit jobs) s) :
    ∃ more finished, Steps program more s (allEnded finished) := by
  obtain ⟨started, laid, among⟩ := (laid_begin program limit jobs).steps steps
  rw [begin_all] at among
  exact laid.exists_ending ((sound_begin program limit jobs).steps steps) fun label mem =>
    unbroken label (among mem)

end Lanes

end SmsTracking
