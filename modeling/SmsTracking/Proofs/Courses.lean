import SmsTracking.Proofs.Batches

/-!
What comes of all that the service is asked, one command after the other. Main statement: whatever
is asked of a service that has begun with nothing, what is stored under an identifier is the closed
form of its history (`closedForm_run`).
-/

namespace SmsTracking

/-- Each message is there once, if the command brings messages to hand out. -/
def Command.Distinct : Command → Prop
  | process b => (b.messages.map (·.id)).Nodup
  | _ => True

/-- What is asked of the service, after some time and perhaps with a cancellation. -/
structure Step where
  elapsed : Span := ⟨0⟩
  cancelled : Bool := false
  picks : List Nat := []
  command : Command
  distinct : command.Distinct

structure Course where
  world : World
  history : History := {}

namespace Course

/-- Nothing is stored, and nothing was done. -/
def begin (config : ServiceConfig) : Course where
  world := { log := { timeToLive := config.claimTtl } }

def step (a : Ambient) (config : ServiceConfig) (c : Course) (s : Step) : Course :=
  let before := { c.world with
    uptime := c.world.uptime.after s.elapsed, cancelled := s.cancelled }
  let (outcome, after) := (s.command.program (.inPlace config) s.picks).run a before
  let announced := after.announced.drop before.announced.length
  { world := after, history := c.history.extend (s.command.effects announced outcome) }

def run (a : Ambient) (config : ServiceConfig) (steps : List Step) : Course :=
  steps.foldl (step a config) (begin config)

end Course


/-- The history and what a command has done tell of the world that the command leaves. -/
def Command.Accounts (c : Command) (h : History) (w : World) (ended : Outcome Reply × World) :
    Prop :=
  ∃ es, ended.2.announced = w.announced ++ es ∧ (h.extend (c.effects es ended.1)).Tells ended.2

/-- The reply to a command by the outcome of the program behind it. -/
def Outcome.replied {α : Type} (reply : α → Reply) : Outcome (Except AppError α) → Outcome Reply
  | .done answer => .done (.of reply answer)
  | .aborted text => .aborted text

namespace Command

variable {c : Command} {h : History} {w w' : World}

theorem effects_failed (c : Command) (es : List Envelope) (e : AppError) :
    c.effects es (.done (.failed e)) = [] := by
  cases c <;> rfl

theorem effects_aborted (c : Command) (es : List Envelope) (text : String) :
    c.effects es (.aborted text) = [] := by
  cases c <;> rfl

theorem run_replying {α : Type} {s : Service} {reply : α → Reply}
    {p : Program (Except AppError α)} (staged : c.stage s = replying reply p) (a : Ambient)
    (picks : List Nat) (w : World) :
    (c.program s picks).run a w = ((p.run a w).1.replied reply, (p.run a w).2) := by
  simp only [program, staged, replying, map_eq_pure_bind, bind_assoc, pure_bind]
  rw [Program.run_bind]
  rcases p.run a w with ⟨answer | text, w'⟩ <;> rfl

theorem accounts_nothing (tells : h.Tells w) {o : Outcome Reply}
    (nothing : c.effects [] o = []) (announced : w'.announced = w.announced)
    (messages : w'.messages = w.messages) (log : w'.log = w.log) : c.Accounts h w (o, w') := by
  refine ⟨[], by rw [announced, List.append_nil], ?_⟩
  rw [nothing]
  exact tells.of_same messages fun key => by rw [log]

theorem accounts_deed (a : Ambient) (retries : Nat) (d : Deed) (tells : h.Tells w)
    (done : ∀ m, c.effects [] (.done (.message m)) = [{ deed := d }]) :
    c.Accounts h w
      (((d.program retries).run a w).1.replied .message, ((d.program retries).run a w).2) := by
  obtain ⟨readings, ran⟩ := d.run_program a retries w
  rw [ran]
  cases effect : d.effect w.messages (a.clock w.readings) with
  | aborted text => exact accounts_nothing tells (effects_aborted ..) rfl rfl rfl
  | done answer =>
      cases answer with
      | error reason => exact accounts_nothing tells (effects_failed ..) rfl rfl rfl
      | ok m =>
          refine ⟨[], (List.append_nil _).symm, ?_⟩
          simp only [Outcome.replied, Reply.of, done]
          exact tells.deed effect rfl rfl

theorem accounts_emission {p : Payload} {o : Outcome (Except AppError Message)} (tells : h.Tells w)
    (emission : Emission p w w' o)
    (done : ∀ e m, m.id = p.messageId →
      c.effects [e] (.done (.message m)) = [{ event := some e, deed := p.deed e.time }]) :
    c.Accounts h w (o.replied .message, w') := by
  cases emission with
  | cancelled messages log announced =>
      exact accounts_nothing tells (effects_failed ..) announced messages log
  | taken carries announced received found =>
      refine ⟨_, announced, ?_⟩
      simp only [Outcome.replied, Reply.of, done _ _ (MessageStore.id_of_find? found)]
      exact tells.taken carries received
  | lost carries announced received vacant failure =>
      have nothing : ∀ es, c.effects es (o.replied .message) = [] := by
        intro es
        cases o with
        | aborted text => exact effects_aborted c es text
        | done answer =>
            cases answer with
            | ok m => cases failure
            | error reason => exact effects_failed c es reason
      refine ⟨_, announced, ?_⟩
      rw [nothing]
      exact tells.lost_of_carries carries received vacant

theorem accounts_received {e : Envelope} {k : EventKind} {success : Bool} {o : Outcome Reply}
    {es : List Envelope} (tells : h.Tells w) (kind : e.type = k.name)
    (received : Listener.Received k e w w' success) (announced : w'.announced = w.announced ++ es)
    (done : c.effects es o = if success then (Effect.ofEvent? e).toList else []) :
    c.Accounts h w (o, w') := by
  refine ⟨es, announced, ?_⟩
  rw [done]
  cases success with
  | false => exact tells.lost received fun _ _ => nofun
  | true =>
      cases decoded : e.payloadAs k with
      | ok p =>
          have carries : e.Carries k p := ⟨kind, decoded⟩
          simp only [if_true, Effect.ofEvent?, carries.payload?, Option.map_some]
          exact tells.taken carries received
      | error reason =>
          have unread : e.payload? = none := by
            simp only [Envelope.payload?, kind, EventKind.ofName?_name, Option.bind_some, decoded,
              Except.toOption]
          simp only [if_true, Effect.ofEvent?, unread, Option.map_none]
          refine tells.lost received fun p read => ?_
          rw [decoded] at read
          cases read

/-- The messages of a batch are handed out if the batch is not too wide. -/
theorem accounts_handing {a : Ambient} {config : ServiceConfig} {b : Batch} {picks : List Nat}
    (tells : h.Tells w) (distinct : (b.messages.map (·.id)).Nodup)
    (done : ∀ es ms, c.effects es (.done (.batch ms)) =
      es.filterMap (Effect.ofHandOut? (ms.map (·.id)))) :
    c.Accounts h w ((handing b >>= Stage.finish (.inPlace config) picks).run a w) := by
  by_cases narrow : b.width ≤ Batch.maxWidth
  · obtain ⟨handed, w', ran, told⟩ := Batch.tells_process a config narrow distinct picks w
    obtain ⟨es, announced, tells'⟩ := told h tells
    simp only [handing, Batch.begin, if_pos narrow, pure_bind, Stage.finish]
    rw [Program.run_bind, ran]
    refine ⟨es, announced, ?_⟩
    simp only [Program.run_pure, done]
    exact tells'
  · simp only [handing, Batch.begin, if_neg narrow]
    exact accounts_nothing tells (effects_aborted ..) rfl rfl rfl

theorem accounts_poll {a : Ambient} {config : ServiceConfig} (picks : List Nat) (p : Poll)
    (tells : h.Tells w) :
    (poll p).Accounts h w (((poll p).program (.inPlace config) picks).run a w) := by
  simp only [program, stage, polling, Service.poll, bind_assoc, Program.run_outstanding]
  generalize p.limit.getD (Service.inPlace config).config.outstandingLimit = limit
  cases waiting : w.messages.outstanding limit with
  | nil => exact accounts_nothing tells rfl rfl rfl rfl
  | cons m ms =>
      simp only [pure_bind]
      refine accounts_handing tells ?_ fun _ _ => rfl
      rw [Batch.ofMessages, ← waiting]
      exact w.messages.nodup_outstanding _

/-- A report that is not about the message, or not of its being sent, is turned away. -/
theorem accounts_report {a : Ambient} {config : ServiceConfig} (picks : List Nat) (m : Message)
    (p : PhoneReport) (tells : h.Tells w) :
    (report m p).Accounts h w (((report m p).program (.inPlace config) picks).run a w) := by
  rw [run_replying rfl]
  unfold Service.report
  split
  · exact accounts_nothing tells rfl rfl rfl rfl
  · split
    · obtain ⟨emission, _⟩ := Service.emission_emit a config p.source
        (.phoneSent (.ofMessage m) p.timestamp) w
      exact accounts_emission tells emission fun _ _ _ => rfl
    · exact accounts_nothing tells rfl rfl rfl rfl
    · exact accounts_nothing tells rfl rfl rfl rfl

theorem accounts_deliver {a : Ambient} {config : ServiceConfig} (picks : List Nat) (e : Envelope)
    (tells : h.Tells w) :
    (deliver e).Accounts h w (((deliver e).program (.inPlace config) picks).run a w) := by
  rw [run_replying rfl]
  unfold Listener.handleEvent
  cases kind : EventKind.ofName? e.type with
  | none => exact accounts_nothing tells rfl rfl rfl rfl
  | some k =>
      have named := EventKind.name_of_ofName? kind
      generalize (Service.inPlace config).config.updateRetries.toNat = retries
      obtain ⟨received, announced, _⟩ := Listener.received_handle a retries k e w
      dsimp only
      generalize (Listener.handle retries k e).run a w = ended at *
      obtain ⟨o, w'⟩ := ended
      rw [← List.append_nil w.announced] at announced
      refine accounts_received tells named.symm received announced ?_
      match o with
      | .done (.ok ()) | .done (.error _) | .aborted _ => rfl

theorem accounts_dispatch {a : Ambient} {config : ServiceConfig} (picks : List Nat) (e : Envelope)
    (tells : h.Tells w) :
    (dispatch e).Accounts h w (((dispatch e).program (.inPlace config) picks).run a w) := by
  simp only [program, stage, dispatching, bind_assoc]
  rw [Program.run_bind]
  cases kind : EventKind.ofName? e.type with
  | none =>
      have unread : Effect.ofEvent? e = none := by
        simp only [Effect.ofEvent?, Envelope.payload?, kind, Option.bind_none, Option.map_none]
      rw [Service.run_transport_of_unknown a config kind]
      refine ⟨[e], rfl, ?_⟩
      simp only [pure_bind, Stage.finish, Program.run_pure, effects, unread]
      exact tells.of_same rfl fun _ => rfl
  | some k =>
      have named := EventKind.name_of_ofName? kind
      obtain ⟨received, announced, _⟩ := Service.received_transport a config named.symm w
      generalize ((Service.inPlace config).transport e).run a w = ended at *
      obtain ⟨o, w'⟩ := ended
      cases o with
      | aborted text => exact accounts_received tells named.symm received announced rfl
      | done answer =>
          cases answer <;> exact accounts_received tells named.symm received announced rfl

theorem accounts_program (a : Ambient) (config : ServiceConfig) (picks : List Nat) {c : Command}
    (distinct : c.Distinct) (tells : h.Tells w) :
    c.Accounts h w ((c.program (.inPlace config) picks).run a w) := by
  cases c with
  | storeSent d =>
      rw [run_replying rfl]
      exact accounts_deed a 0 (.create .mobileTerminated d) tells fun _ => rfl
  | storeReceived d =>
      rw [run_replying rfl]
      exact accounts_deed a 0 (.create .mobileOriginated d) tells fun _ => rfl
  | move id step =>
      rw [run_replying rfl]
      exact accounts_deed a _ (.move id step) tells fun _ => rfl
  | send p =>
      rw [run_replying rfl]
      obtain ⟨emission, _⟩ := Service.emission_emit a config p.source
        (.apiSent ⟨a.ids w.draws, p.owner, p.contact, p.content⟩ p.requestReceivedAt)
        { w with draws := w.draws + 1 }
      refine accounts_emission tells (emission.of_same rfl rfl rfl) fun e m named => ?_
      simp only [effects, Effect.through, named]
      rfl
  | receive p =>
      rw [run_replying rfl]
      obtain ⟨emission, _⟩ := Service.emission_emit a config p.source
        (.phoneReceived ⟨a.ids w.draws, p.owner, p.contact, p.content⟩ p.timestamp)
        { w with draws := w.draws + 1 }
      refine accounts_emission tells (emission.of_same rfl rfl rfl) fun e m named => ?_
      simp only [effects, Effect.through, named]
      rfl
  | report m p => exact accounts_report picks m p tells
  | handOut source m =>
      rw [run_replying rfl]
      obtain ⟨emission, _⟩ := Service.emission_emit a config source (.phoneSending (.ofMessage m)) w
      exact accounts_emission tells emission fun _ _ _ => rfl
  | poll p => exact accounts_poll picks p tells
  | process b => exact accounts_handing tells distinct fun _ _ => rfl
  | get id =>
      rw [run_replying rfl]
      exact accounts_nothing tells rfl rfl rfl rfl
  | thread p =>
      rw [run_replying rfl]
      exact accounts_nothing tells rfl rfl rfl rfl
  | deliver e => exact accounts_deliver picks e tells
  | dispatch e => exact accounts_dispatch picks e tells

end Command

namespace Course

variable (a : Ambient) (config : ServiceConfig)

theorem tells_begin : (begin config).history.Tells (begin config).world := by
  refine ⟨fun id => .none, fun id k => ?_⟩
  exact iff_of_false List.not_mem_nil Bool.false_ne_true

theorem tells_step {c : Course} (tells : c.history.Tells c.world) (s : Step) :
    (c.step a config s).history.Tells (c.step a config s).world := by
  have given : c.history.Tells { c.world with
      uptime := c.world.uptime.after s.elapsed, cancelled := s.cancelled } :=
    tells.of_same rfl fun _ => rfl
  obtain ⟨es, announced, told⟩ :=
    Command.accounts_program a config s.picks s.distinct given
  simp only [step, announced, List.drop_left]
  exact told

theorem tells_run (steps : List Step) :
    (run a config steps).history.Tells (run a config steps).world := by
  unfold run
  generalize began : begin config = c
  have tells : c.history.Tells c.world := began ▸ tells_begin config
  clear began
  induction steps generalizing c with
  | nil => exact tells
  | cons s steps ih => exact ih _ (tells_step a config tells s)

/-! A message that is tried over and over -/

/-- The message under this identifier was tried `n` times, by moves alone: no event was sent. -/
structure Tried (w : World) (id : Uuid) (n : Nat) : Prop where
  uncancelled : w.cancelled = false
  draws : w.draws = 0
  slots : ∀ key, w.log.slots.find? key = none
  message : ∃ m, w.messages.find? id = some m ∧ m.status ∈ Status.attemptAllowed ∧
    m.version.toNat = n ∧ m.sendAttemptCount.toNat = n

theorem world_step_move (c : Course) (id : Uuid) (move : Move) :
    ∃ uptime readings,
      (c.step a config { command := .move id move, distinct := trivial }).world =
        { c.world with
          messages := c.world.messages.after
            ((Deed.move id move).effect c.world.messages (a.clock c.world.readings))
          uptime, readings, cancelled := false } := by
  let before : World := { c.world with uptime := c.world.uptime.after ⟨0⟩, cancelled := false }
  obtain ⟨readings, ran⟩ :=
    Lifecycle.run_transition a id move config.updateRetries.toNat before
  have moved : (c.step a config { command := .move id move, distinct := trivial }).world =
      ((Lifecycle.transition id move config.updateRetries.toNat).run a before).2 :=
    congrArg Prod.snd (Command.run_replying rfl a [] before)
  rw [ran] at moved
  exact ⟨_, readings, moved⟩

theorem Tried.attempt {c : Course} {id : Uuid} {n : Nat} (tried : Tried c.world id n)
    (few : n + 1 < UInt32.size) (time : Timestamp) :
    Tried (c.step a config { command := .move id (.attempt time), distinct := trivial }).world id
      (n + 1) := by
  obtain ⟨m, found, allowed, version, count⟩ := tried.message
  have room : (Move.attempt time).HasRoom m :=
    ⟨by rw [version]; exact Nat.lt_trans few (by decide), by rw [count]; exact few⟩
  obtain ⟨uptime, readings, moved⟩ := world_step_move a config c id (.attempt time)
  have done : (Deed.move id (.attempt time)).effect c.world.messages (a.clock c.world.readings) = _ :=
    Deed.effect_move_of_hasRoom _ found allowed room
  rw [done] at moved
  rw [moved]
  let now := a.clock c.world.readings
  refine ⟨rfl, tried.draws, tried.slots, (Move.attempt time).result m now, ?_, ?_, ?_, ?_⟩
  · rw [MessageStore.after, MessageStore.find?_put, Move.result_id, MessageStore.id_of_find? found,
      if_pos rfl]
  · show Status.sending ∈ Status.attemptAllowed
    decide
  · rw [Move.toNat_version_result room, version]
  · rw [Move.toNat_sendAttemptCount_result room, count]
    rfl

/-- As many tries as the counter can count. -/
theorem tried_run (d : NewMessage) (time : Timestamp) {n : Nat} (few : n < UInt32.size) :
    Tried (run a config ({ command := .storeSent d, distinct := trivial } ::
      List.replicate n { command := .move d.id (.attempt time), distinct := trivial })).world
      d.id n := by
  induction n with
  | zero =>
      have created : (Message.mobileTerminated d (a.clock 0)).status ∈ Status.attemptAllowed := by
        show Status.pending ∈ Status.attemptAllowed
        decide
      have stored := MessageStore.find?_put ∅ (.mobileTerminated d (a.clock 0)) d.id
      exact ⟨rfl, rfl, fun _ => rfl, _, stored.trans (if_pos rfl), created, rfl, rfl⟩
  | succ n ih =>
      rw [List.replicate_succ', ← List.cons_append, run, List.foldl_append]
      exact (ih (Nat.lt_of_succ_lt few)).attempt a config few time

theorem closedForm_run (steps : List Step) (id : Uuid) :
    ClosedForm ((run a config steps).history.about id)
      ((run a config steps).world.messages.find? id) :=
  (tells_run a config steps).messages id

/-- A second poll finds no message that waits, and is not in the history. -/
example :
    let a : Ambient := ⟨fun _ => .epoch, fun n => ⟨n⟩⟩
    let poll : Step := { command := .poll ⟨"phone", none⟩, distinct := trivial }
    let send : Step :=
      { command := .send ⟨"+1000", "+2000", "hi", "api", .epoch⟩, distinct := trivial }
    (run a {} [send, poll, poll]).history.about ⟨0⟩ =
      [.create .mobileTerminated ⟨⟨0⟩, "+1000", "+2000", "hi", .epoch⟩,
        .move ⟨0⟩ (.attempt .epoch)] := by
  decide +kernel

end Course

end SmsTracking
