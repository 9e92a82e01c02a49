import SmsTracking.Demo.Run
import SmsTracking.Proofs.Polls
import SmsTracking.Proofs.Threads

/-!
A whole life of messages, as the demonstration tells it. Messages are sent, some of those that wait
are handed out and reported, one comes back, and the thread shows them all. Main statement: whatever
the configuration and whoever of the workers goes on when, the life ends with its thread and leaves
one record for each event (`life_told`).
-/

namespace SmsTracking

theorem Message.Tries.fixed_eq {a : Ambient} {n m : Message} {k : Nat} (tries : n.Tries a k m) :
    m.fixed = n.fixed := by
  induction tries with
  | none => rfl
  | more _ _ _ ih => rw [Move.fixed_result, ih]

/-- Has been handed out once, and nothing else has become of it. -/
structure Message.Handed (m : Message) : Prop where
  status : m.status = .sending
  version : m.version = 1
  sendAttemptCount : m.sendAttemptCount = 1

theorem Message.Untried.handed {a : Ambient} {n m : Message} (untried : n.Untried)
    (tries : n.Tries a 1 m) : m.Handed := by
  refine ⟨tries.status Nat.one_pos, UInt64.toNat_inj.mp ?_, UInt32.toNat_inj.mp ?_⟩
  · rw [tries.version, untried.version]
    rfl
  · rw [tries.sendAttemptCount, untried.sendAttemptCount]
    rfl

/-- Was handed out once and then reported. -/
structure Message.Reported (m : Message) : Prop where
  status : m.status = .sent
  version : m.version = 2
  sendAttemptCount : m.sendAttemptCount = 1
  sendDurationMs : ∃ d, m.sendDurationMs = some d ∧ 0 ≤ d

theorem Message.Handed.reported {m : Message} (handed : m.Handed) (time now : Timestamp) :
    ((Move.confirm time).result m now).Reported where
  status := rfl
  version := by
    rw [Move.result_version, handed.version]
    rfl
  sendAttemptCount := handed.sendAttemptCount
  sendDurationMs := by
    refine ⟨_, rfl, Int64.le_iff_toInt_le.mpr ?_⟩
    rw [Timestamp.toInt_millisecondsSince]
    exact le_max_left _ _

theorem MessageStore.thread_perm {s : MessageStore} {owner contact : String}
    (between : ∀ m ∈ s.toList, m.owner = owner ∧ m.contact = contact) :
    (s.thread owner contact none).Perm s.toList := by
  have all : s.matching owner contact none = s.toList := by
    refine List.filter_eq_self.mpr fun m mem => ?_
    simpa using between m mem
  rw [thread, all]
  exact List.mergeSort_perm ..

/-- What a poll gets of messages that all wait, and what it leaves. -/
theorem Books.outstanding {a : Ambient} {w : World} {ms : List Message} {records draws : Nat}
    (books : Books a w ms records draws) (waits : ∀ m ∈ ms, m.isOutstanding = true)
    (limit : UInt64) :
    (w.messages.outstanding limit).length = min ms.length limit.toNat ∧
      ∃ rest, Books a w (w.messages.outstanding limit ++ rest) records draws ∧
        (w.messages.outstanding limit ++ rest).Perm ms ∧
        ∀ m ∈ w.messages.outstanding limit, ∀ n ∈ rest, m.orderTimestamp ≤ n.orderTimestamp := by
  have all : w.messages.waiting = w.messages.toList :=
    List.filter_eq_self.mpr fun m mem => waits m (books.messages.mem_iff.mp mem)
  have parts : w.messages.outstanding limit ++ w.messages.queue.drop limit.toNat =
      w.messages.queue :=
    List.take_append_drop limit.toNat w.messages.queue
  have perm : (w.messages.outstanding limit ++ w.messages.queue.drop limit.toNat).Perm ms := by
    rw [parts, MessageStore.queue, all]
    exact (List.mergeSort_perm ..).trans books.messages
  have sorted := w.messages.sorted_queue
  rw [← parts] at sorted
  refine ⟨?_, w.messages.queue.drop limit.toNat, books.recount perm.symm rfl rfl, perm,
    (List.pairwise_append.mp sorted).2.2⟩
  rw [w.messages.length_outstanding, all, books.messages.length_eq, Nat.min_comm]

theorem Batch.exists_schedule_getOutstanding (a : Ambient) (config : ServiceConfig)
    (narrow : max config.outstandingConcurrency.toNat 1 ≤ maxWidth) (source : String) (w : World) :
    ∃ schedule handed, .cancel ∉ schedule ∧
      let b := ofMessages source config.outstandingConcurrency
        (w.messages.outstanding config.outstandingLimit)
      let t := (Turns.ofBatch (.inPlace config) b w).run a Turns.alone schedule
      ((Service.inPlace config).getOutstanding [] ⟨source, none⟩).run a w =
        (.done (.ok handed), t.world) ∧ t.Over ∧ handed.Perm t.answers := by
  simp only [Service.getOutstanding, Service.poll, bind_assoc, Program.run_outstanding,
    Service.config_inPlace, Option.getD_none]
  cases w.messages.outstanding config.outstandingLimit with
  | nil => exact ⟨[], [], List.not_mem_nil, rfl, fun _ inside => absurd inside (Nat.not_lt_zero _),
      .refl _⟩
  | cons m ms =>
      obtain ⟨schedule, handed, calm, ran, ended, perm⟩ :=
        exists_schedule_process a (.inPlace config)
          (b := ofMessages source config.outstandingConcurrency (m :: ms)) narrow [] w
      refine ⟨schedule, handed, calm, ?_, ended, perm⟩
      simp only [pure_bind]
      rw [Program.run_bind, ran]
      rfl

namespace Demo

/-- The rest of a life, when these messages have been handed out. -/
def finish (s : Service) (args : Arguments) (handed : List Message) :
    Program (Except AppError (List Message)) := do
  match ← reportAll s handed with
  | .error e => pure (.error e)
  | .ok () =>
    let received ← s.receive
      { owner := args.owner, contact := args.contact, content := "got it, thanks"
        source := "sms-demo/phone", timestamp := ← Program.now }
    match received with
    | .error e => pure (.error e)
    | .ok _ => Service.thread (← wholeThread args)

theorem run_life {a : Ambient} {s : Service} {args : Arguments} {w w₁ w₂ : World}
    {handed : List Message}
    (sent : (sendAll s args 0 args.messages.toNat).run a w = (.done (.ok ()), w₁))
    (polled : (s.getOutstanding [] ⟨"sms-demo/phone", none⟩).run a w₁ =
      (.done (.ok handed), w₂)) :
    (life s args).run a w = (finish s args handed).run a w₂ := by
  simp only [life]
  rw [Program.run_bind, sent]
  simp only
  rw [Program.run_bind, polled]
  rfl

/-- The message of this number as it is sent. -/
def Hello (args : Arguments) (i : Nat) (m : Message) : Prop :=
  ∃ id time now, m =
    .mobileTerminated ⟨id, args.owner, args.contact, "hello #" ++ toString i, time⟩ now

namespace Hello

variable {args : Arguments} {i : Nat} {m : Message}

theorem between (hello : Hello args i m) : m.owner = args.owner ∧ m.contact = args.contact := by
  obtain ⟨id, time, now, rfl⟩ := hello
  exact ⟨rfl, rfl⟩

theorem content (hello : Hello args i m) : m.content = "hello #" ++ toString i := by
  obtain ⟨id, time, now, rfl⟩ := hello
  rfl

theorem status (hello : Hello args i m) : m.status = .pending := by
  obtain ⟨id, time, now, rfl⟩ := hello
  rfl

theorem isOutstanding (hello : Hello args i m) : m.isOutstanding = true := by
  obtain ⟨id, time, now, rfl⟩ := hello
  rfl

theorem untried (hello : Hello args i m) : m.Untried := by
  obtain ⟨id, time, now, rfl⟩ := hello
  exact ⟨rfl, rfl⟩

end Hello

/-- The reply to the messages of a life. -/
def Reply (args : Arguments) (m : Message) : Prop :=
  ∃ id time now, m =
    .mobileOriginated ⟨id, args.owner, args.contact, "got it, thanks", time⟩ now

namespace Reply

variable {args : Arguments} {m : Message}

theorem between (reply : Reply args m) : m.owner = args.owner ∧ m.contact = args.contact := by
  obtain ⟨id, time, now, rfl⟩ := reply
  exact ⟨rfl, rfl⟩

theorem content (reply : Reply args m) : m.content = "got it, thanks" := by
  obtain ⟨id, time, now, rfl⟩ := reply
  rfl

theorem status (reply : Reply args m) : m.status = .received := by
  obtain ⟨id, time, now, rfl⟩ := reply
  rfl

end Reply

/-- What the thread of a life shows in which `most` messages were handed out. -/
structure Story (args : Arguments) (most : Nat) (ms : List Message) : Prop where
  length : ms.length = args.messages.toNat + 1
  between : ∀ m ∈ ms, m.owner = args.owner ∧ m.contact = args.contact
  sorted : ms.Pairwise fun a b => b.orderTimestamp ≤ a.orderTimestamp
  contents : (ms.map (·.content)).Perm
    ("got it, thanks" :: (List.range args.messages.toNat).map fun i => "hello #" ++ toString i)
  sent : ms.countP (·.status = .sent) = most
  pending : ms.countP (·.status = .pending) = args.messages.toNat - most
  received : ms.countP (·.status = .received) = 1
  reported : ∀ m ∈ ms, m.status = .sent → m.Reported
  untried : ∀ m ∈ ms, m.status = .pending → m.Untried
  reply : ∀ m ∈ ms, m.status = .received → m.content = "got it, thanks"
  /-- None that was sent is later than one that still waits. -/
  earliest : ∀ m ∈ ms, m.status = .sent → ∀ n ∈ ms, n.status = .pending →
    m.orderTimestamp ≤ n.orderTimestamp

/-- The messages that are left of those that were sent at first, some of which have moved on. -/
structure Cast (args : Arguments) (news moved rest : List Message) : Prop where
  hellos : List.Forall₂ (Hello args) (List.range args.messages.toNat) news
  same : ((moved ++ rest).map Message.fixed).Perm (news.map Message.fixed)
  left : rest ⊆ news
  earliest : ∀ m ∈ moved, ∀ n ∈ rest, m.orderTimestamp ≤ n.orderTimestamp

theorem countP_status {ms : List Message} {s : Status} (all : ∀ m ∈ ms, m.status = s) (t : Status) :
    ms.countP (·.status = t) = if s = t then ms.length else 0 := by
  split
  · rename_i same
    exact List.countP_eq_length.mpr fun m mem => decide_eq_true ((all m mem).trans same)
  · rename_i other
    exact List.countP_eq_zero.mpr fun m mem found =>
      other ((all m mem).symm.trans (of_decide_eq_true found))

namespace Cast

variable {args : Arguments} {news moved moved' rest ms : List Message} {reply : Message}

/-- Whatever else becomes of those that have moved on, and in whatever order they are told. -/
theorem congr (cast : Cast args news moved rest)
    (perm : (moved'.map Message.fixed).Perm (moved.map Message.fixed)) :
    Cast args news moved' rest := by
  refine ⟨cast.hellos, ?_, cast.left, fun m mem n left => ?_⟩
  · rw [List.map_append]
    refine (perm.append_right _).trans ?_
    rw [← List.map_append]
    exact cast.same
  · obtain ⟨m', listed, same⟩ := List.mem_map.mp (perm.mem_iff.mp (List.mem_map_of_mem mem))
    have order : m'.orderTimestamp = m.orderTimestamp :=
      (congrArg Message.orderTimestamp same :)
    rw [← order]
    exact cast.earliest m' listed n left

theorem hello (cast : Cast args news moved rest) {m : Message} (mem : m ∈ news) :
    ∃ i, Hello args i m := by
  obtain ⟨i, _, hello⟩ := exists_of_mem_right cast.hellos mem
  exact ⟨i, hello⟩

theorem between (cast : Cast args news moved rest) {m : Message} (mem : m ∈ moved ++ rest) :
    m.owner = args.owner ∧ m.contact = args.contact := by
  obtain ⟨n, listed, same⟩ :=
    List.mem_map.mp (cast.same.mem_iff.mp (List.mem_map_of_mem mem))
  obtain ⟨i, hello⟩ := cast.hello listed
  obtain ⟨owner, contact⟩ := hello.between
  exact ⟨(congrArg Message.owner same).symm.trans owner,
    (congrArg Message.contact same).symm.trans contact⟩

theorem length (cast : Cast args news moved rest) :
    moved.length + rest.length = args.messages.toNat := by
  have lengths := cast.same.length_eq
  rwa [List.length_map, List.length_map, List.length_append, ← cast.hellos.length_eq,
    List.length_range] at lengths

theorem contents (cast : Cast args news moved rest) :
    ((moved ++ rest).map (·.content)).Perm
      ((List.range args.messages.toNat).map fun i => "hello #" ++ toString i) := by
  have same := cast.same.map Message.content
  rw [List.map_map, List.map_map] at same
  have told : news.map (·.content) =
      (List.range args.messages.toNat).map fun i => "hello #" ++ toString i :=
    map_eq_of_forall₂ (cast.hellos.imp fun _ _ => Hello.content)
  rw [← told]
  exact same

theorem pending (cast : Cast args news moved rest) : ∀ m ∈ rest, m.status = .pending := by
  intro m mem
  obtain ⟨i, hello⟩ := cast.hello (cast.left mem)
  exact hello.status

section Story

variable (cast : Cast args news moved rest) (reported : ∀ m ∈ moved, m.Reported)
  (replies : Reply args reply) (perm : ms.Perm (reply :: (moved ++ rest)))

include cast reported replies perm

/-- The status of a message tells where it comes from. -/
theorem of_status {m : Message} (mem : m ∈ ms) :
    match m.status with
    | .sent => m ∈ moved
    | .pending => m ∈ rest
    | .received => m = reply
    | .sending => False := by
  rcases List.mem_cons.mp (perm.mem_iff.mp mem) with rfl | mem
  · rw [replies.status]
  · rcases List.mem_append.mp mem with mem | mem
    · rwa [(reported m mem).status]
    · rwa [cast.pending m mem]

theorem countP_status (t : Status) :
    ms.countP (·.status = t) = (if .received = t then 1 else 0) +
      ((if .sent = t then moved.length else 0) + if .pending = t then rest.length else 0) := by
  rw [perm.countP_eq, List.countP_cons, List.countP_append,
    Demo.countP_status fun m mem => (reported m mem).status, Demo.countP_status cast.pending,
    replies.status, Nat.add_comm]
  simp

theorem story (sorted : ms.Pairwise fun a b => b.orderTimestamp ≤ a.orderTimestamp) :
    Story args moved.length ms where
  length := by rw [perm.length_eq, List.length_cons, List.length_append, cast.length]
  between m mem := by
    rcases List.mem_cons.mp (perm.mem_iff.mp mem) with rfl | mem
    · exact replies.between
    · exact cast.between mem
  sorted := sorted
  contents := by
    refine (perm.map _).trans ?_
    rw [List.map_cons, replies.content]
    exact cast.contents.cons _
  sent := by
    rw [cast.countP_status reported replies perm]
    simp
  pending := by
    rw [cast.countP_status reported replies perm, ← cast.length]
    simp
  received := by
    rw [cast.countP_status reported replies perm]
    simp
  reported m mem status := by
    have listed := cast.of_status reported replies perm mem
    rw [status] at listed
    exact reported m listed
  untried m mem status := by
    have left := cast.of_status reported replies perm mem
    rw [status] at left
    obtain ⟨i, hello⟩ := cast.hello (cast.left left)
    exact hello.untried
  reply m mem status := by
    have own := cast.of_status reported replies perm mem
    rw [status] at own
    rw [own, replies.content]
  earliest m mem status n mem' status' := by
    have listed := cast.of_status reported replies perm mem
    have left := cast.of_status reported replies perm mem'
    rw [status] at listed
    rw [status'] at left
    exact cast.earliest m listed n left

end Story

end Cast

section Run

variable {a : Ambient} {k : Nat} (distinct : ∀ j < k, ∀ i < j, a.ids i ≠ a.ids j)
  (config : ServiceConfig) (args : Arguments) {w : World} {records draws : Nat}

include distinct

theorem run_sendAll {ms : List Message} (n i : Nat) (books : Books a w ms records draws)
    (few : draws + 3 * n ≤ k) :
    ∃ w' sent, (sendAll (.inPlace config) args i n).run a w = (.done (.ok ()), w') ∧
      List.Forall₂ (Hello args) (List.range' i n) sent ∧
      Books a w' (sent ++ ms) (records + n) (draws + 3 * n) := by
  induction n generalizing w i ms records draws with
  | zero => exact ⟨w, [], rfl, .nil, books⟩
  | succ n ih =>
      obtain ⟨m, w₁, ran, ⟨now, made⟩, books₁⟩ := (books.read (w.readings + 1)).run_create
        distinct config "sms-demo/api" (by omega)
        (fun id => .apiSent ⟨id, args.owner, args.contact, "hello #" ++ toString i⟩
          (a.clock w.readings))
        (fun _ _ => rfl) (fun _ => rfl)
      obtain ⟨w', sent, ranAll, hellos, books'⟩ := ih (i + 1) books₁ (by omega)
      refine ⟨w', m :: sent, ?_, .cons ⟨_, _, now, made⟩ hellos, ?_⟩
      · simp only [sendAll, Service.send, Program.run_now]
        rw [Program.run_bind, ran]
        exact ranAll
      · exact books'.recount List.perm_middle (by omega) (by omega)

theorem run_reportAll {handed rest : List Message}
    (books : Books a w (handed ++ rest) records draws) (few : draws + 2 * handed.length ≤ k)
    (once : ∀ m ∈ handed, m.Handed) :
    ∃ w' sent, (reportAll (.inPlace config) handed).run a w = (.done (.ok ()), w') ∧
      List.Forall₂ (fun m m' => m'.fixed = m.fixed ∧ m'.Reported) handed sent ∧
      Books a w' (sent ++ rest) (records + handed.length) (draws + 2 * handed.length) := by
  induction handed generalizing w rest records draws with
  | nil => exact ⟨w, [], rfl, .nil, books⟩
  | cons m handed ih =>
      rw [List.length_cons] at few
      have tried := once m List.mem_cons_self
      have allowed : m.status ∈ Status.confirmationAllowed := by
        rw [tried.status]
        exact List.mem_singleton_self _
      have room : m.version.toNat + 1 < UInt64.size := by
        rw [tried.version]
        decide
      obtain ⟨m', w₁, ran, ⟨now, moved⟩, books₁⟩ := (books.read (w.readings + 1)).run_move
        distinct config "sms-demo/phone" (by omega)
        (.phoneSent (.ofMessage m) (a.clock w.readings)) (fun _ => rfl) allowed room
      obtain ⟨w', sent, ranAll, reported, books'⟩ := ih
        (books₁.recount List.perm_middle.symm rfl rfl) (by omega)
        fun m mem => once m (List.mem_cons_of_mem _ mem)
      refine ⟨w', m' :: sent, ?_, .cons ?_ reported, ?_⟩
      · simp only [reportAll, Service.report, Program.run_now, ne_eq, not_true_eq_false, if_false]
        rw [Program.run_bind, ran]
        exact ranAll
      · rw [moved]
        exact ⟨Move.fixed_result .., tried.reported ..⟩
      · exact books'.recount List.perm_middle (by rw [List.length_cons]; omega)
          (by rw [List.length_cons]; omega)

theorem run_finish {news handed rest : List Message} (cast : Cast args news handed rest)
    (once : ∀ m ∈ handed, m.Handed) (books : Books a w (handed ++ rest) records draws)
    (few : draws + 2 * handed.length + 3 ≤ k) (small : args.messages.toNat + 1 < UInt64.size) :
    ∃ ms w', (finish (.inPlace config) args handed).run a w = (.done (.ok ms), w') ∧
      Story args handed.length ms ∧ w'.log.size = records + handed.length + 1 := by
  obtain ⟨w₁, sent, ranAll, reports, books₁⟩ :=
    run_reportAll distinct config books (by omega) once
  obtain ⟨reply, w₂, ran, ⟨now, made⟩, books₂⟩ := (books₁.read (w₁.readings + 1)).run_create
    distinct config "sms-demo/phone" (by omega)
    (fun id => .phoneReceived ⟨id, args.owner, args.contact, "got it, thanks"⟩
      (a.clock w₁.readings))
    (fun _ _ => rfl) (fun _ => rfl)
  have replies : Reply args reply := ⟨_, _, now, made⟩
  have reported : ∀ m ∈ sent, m.Reported := by
    intro m mem
    obtain ⟨n, _, _, reported⟩ := exists_of_mem_right reports mem
    exact reported
  have same : sent.map Message.fixed = handed.map Message.fixed :=
    map_eq_of_forall₂ (reports.imp fun _ _ => And.left)
  have cast' : Cast args news sent rest := cast.congr (same ▸ .refl _)
  have whole : (w₂.messages.thread args.owner args.contact none).Perm w₂.messages.toList := by
    refine MessageStore.thread_perm fun m mem => ?_
    rcases List.mem_cons.mp (books₂.messages.mem_iff.mp mem) with rfl | mem
    · exact replies.between
    · exact cast'.between mem
  have story := cast'.story reported replies (whole.trans books₂.messages)
    (w₂.messages.lists_thread ..).sorted
  -- The page is just long enough for the messages and the reply.
  have page : w₂.messages.index args.owner args.contact ⟨0, args.messages + 1, none⟩ =
      w₂.messages.thread args.owner args.contact none := by
    refine MessageStore.index_whole ?_
    rw [story.length, UInt64.toNat_add]
    exact (Nat.mod_eq_of_lt small).ge
  refine ⟨_, w₂, ?_, reports.length_eq ▸ story, books₂.records⟩
  simp only [finish]
  rw [Program.run_bind, ranAll]
  simp only [Service.receive, Program.run_now]
  rw [Program.run_bind, ran]
  simp only [wholeThread, if_pos small, pure_bind]
  rw [← page]
  rfl

end Run

/-- So many of the messages of a life are handed out. -/
def most (config : ServiceConfig) (args : Arguments) : Nat :=
  min args.messages.toNat config.outstandingLimit.toNat

/-- A life ends with its thread, and each of its events has left a record. -/
def Told (config : ServiceConfig) (args : Arguments)
    (ended : Outcome (Except AppError (List Message)) × World) : Prop :=
  ∃ ms, Ending.ofOutcome ended.1 = .thread ms ∧ Story args (most config args) ms ∧
    ended.2.log.size = args.messages.toNat + 2 * most config args + 1

/-- How a life goes, from a world in which nothing is stored. -/
structure Lives (a : Ambient) (config : ServiceConfig) (args : Arguments) : Prop where
  whole : Told config args ((life (.inPlace config) args).run a (Course.begin config).world)
  /-- The same with the workers side by side that hand out the messages that wait. They end, each
  after so many turns of its own, and then the rest of the life follows. -/
  workers : ∃ w, (sendAll (.inPlace config) args 0 args.messages.toNat).run a
      (Course.begin config).world = (.done (.ok ()), w) ∧
    ∀ schedule, .cancel ∉ schedule →
      let b := Batch.ofMessages "sms-demo/phone" config.outstandingConcurrency
        (w.messages.outstanding config.outstandingLimit)
      let t := (Turns.ofBatch (.inPlace config) b w).run a Turns.alone schedule
      ((∀ place < b.messages.length, Batch.turns config ≤ schedule.count (.go place)) → t.Over) ∧
        (t.Over → ∀ handed, handed.Perm t.answers →
          Told config args ((finish (.inPlace config) args handed).run a t.world))

theorem books_begin (a : Ambient) (config : ServiceConfig) :
    Books a (Course.begin config).world [] 0 0 :=
  ⟨rfl, ⟨fun _ _ found => (nomatch found), fun _ _ found => (nomatch found)⟩, .refl _, rfl, rfl⟩

/-- The rest of a life, whoever of the workers went on when. -/
theorem told_workers {a : Ambient} {config : ServiceConfig} {args : Arguments} {w : World}
    {b : Batch} {news rest : List Message} (small : args.messages.toNat + 1 < UInt64.size)
    (distinct : ∀ j < 3 * args.messages.toNat + 4 * most config args + 3, ∀ i < j,
      a.ids i ≠ a.ids j)
    (books : Books a w (b.messages ++ rest) args.messages.toNat (3 * args.messages.toNat))
    (cast : Cast args news b.messages rest) (count : b.messages.length = most config args)
    (waiting : ∀ n ∈ b.messages, n.isOutstanding = true ∧ n.Untried) {schedule : List Turn}
    (calm : .cancel ∉ schedule) :
    let t := (Turns.ofBatch (.inPlace config) b w).run a Turns.alone schedule
    t.Over → ∀ handed, handed.Perm t.answers →
      Told config args ((finish (.inPlace config) args handed).run a t.world) := by
  intro t ended handed perm
  obtain ⟨tries, books'⟩ :=
    Books.run_workers distinct config books (by omega) waiting calm ended
  have length : handed.length = most config args := by
    rw [perm.length_eq, ← count, tries.length_eq]
  have once : ∀ m ∈ handed, m.Handed := by
    intro m mem
    obtain ⟨n, listed, tries⟩ := exists_of_mem_right tries (perm.mem_iff.mp mem)
    exact (waiting n listed).2.handed tries
  -- In whatever order the messages were answered, they are the ones that were selected.
  have fixed : t.answers.map Message.fixed = b.messages.map Message.fixed :=
    map_eq_of_forall₂ (tries.imp fun _ _ => Message.Tries.fixed_eq)
  obtain ⟨ms, w', ran, story, size⟩ := run_finish distinct config args
    (cast.congr (fixed ▸ perm.map _)) once (books'.recount (perm.symm.append_right rest) rfl rfl)
    (by omega) small
  rw [length] at story size
  refine ⟨ms, by rw [ran]; rfl, story, ?_⟩
  rw [ran, size, count]
  omega

theorem life_told (a : Ambient) (config : ServiceConfig) (args : Arguments)
    (small : args.messages.toNat + 1 < UInt64.size)
    (narrow : max config.outstandingConcurrency.toNat 1 ≤ Batch.maxWidth)
    (distinct : ∀ j < 3 * args.messages.toNat + 4 * most config args + 3, ∀ i < j,
      a.ids i ≠ a.ids j) : Lives a config args := by
  obtain ⟨w, news, ran, hellos, sentAll⟩ := run_sendAll distinct config args args.messages.toNat 0
    (books_begin a config) (by omega)
  rw [← List.range_eq_range'] at hellos
  rw [List.append_nil, Nat.zero_add, Nat.zero_add] at sentAll
  have waiting : ∀ n ∈ news, n.isOutstanding = true ∧ n.Untried := by
    intro n mem
    obtain ⟨i, _, hello⟩ := exists_of_mem_right hellos mem
    exact ⟨hello.isOutstanding, hello.untried⟩
  obtain ⟨count, rest, books, parts, earliest⟩ :=
    sentAll.outstanding (fun n mem => (waiting n mem).1) config.outstandingLimit
  rw [← hellos.length_eq, List.length_range] at count
  have cast : Cast args news (w.messages.outstanding config.outstandingLimit) rest :=
    ⟨hellos, parts.map _, fun n mem => parts.mem_iff.mp (List.mem_append_right _ mem), earliest⟩
  obtain ⟨schedule, handed, calm, polled, ended, perm⟩ :=
    Batch.exists_schedule_getOutstanding a config narrow "sms-demo/phone" w
  have workers (schedule : List Turn) (calm : .cancel ∉ schedule) := told_workers
    (b := .ofMessages "sms-demo/phone" config.outstandingConcurrency _) small distinct books cast
    count (fun n mem => waiting n (parts.mem_iff.mp (List.mem_append_left _ mem))) calm
  refine ⟨?_, w, ran, fun schedule calm => ⟨Turns.over_run a config _ w, workers schedule calm⟩⟩
  rw [run_life ran polled]
  exact workers schedule calm ended handed perm

/-- Two messages are sent, and one of them is handed out. -/
theorem life_told_pair :
    let a : Ambient := ⟨fun _ => .epoch, fun n => ⟨n⟩⟩
    let config : ServiceConfig := { outstandingLimit := 1 }
    let args : Arguments := { messages := 2 }
    (args.messages.toNat + 1 < UInt64.size ∧
        max config.outstandingConcurrency.toNat 1 ≤ Batch.maxWidth ∧
        ∀ j < 3 * args.messages.toNat + 4 * most config args + 3, ∀ i < j, a.ids i ≠ a.ids j) ∧
      Lives a config args := by
  intro a config args
  have distinct : ∀ j < 3 * args.messages.toNat + 4 * most config args + 3, ∀ i < j,
      a.ids i ≠ a.ids j := by
    decide
  exact ⟨⟨by decide, by decide, distinct⟩, life_told a config args (by decide) (by decide) distinct⟩

end Demo

end SmsTracking
