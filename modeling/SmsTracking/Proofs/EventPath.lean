import SmsTracking.Proofs.Atomicity
import SmsTracking.Proofs.Courses

/-!
An operation that goes by way of its event comes to the same as the operation itself. The event is
new to the log, so that the listener tries it: the deed that it asks for is the one of the operation,
and a failure is wrapped so that it is still known for what it is. Main statement: sending,
receiving, handing out and reporting agree with storing and moving (`eventPath_refines`).
-/

namespace SmsTracking

/-- The next `k` identifiers are all different, and none is that of an event in the log. -/
structure World.Fresh (a : Ambient) (w : World) (k : Nat) : Prop where
  distinct : ∀ j < k, ∀ i < j, a.ids (w.draws + i) ≠ a.ids (w.draws + j)
  vacant : ∀ i < k, ∀ kind, w.log.slots.find?
    ⟨toString (a.ids (w.draws + i)), Listener.signature kind⟩ = none

theorem Listener.trial_of_carries {s : MessageStore} {now : Timestamp} {k : EventKind}
    {e : Envelope} {p : Payload} (carries : e.Carries k p) :
    trial s now k e = (p.deed e.time).effect s now := by
  simp only [trial, carries.decoded]

namespace Service

variable (a : Ambient) (config : ServiceConfig)

/-- What is answered if the handler of an event has failed with `reason`. -/
def undispatched (k : EventKind) (e : Envelope) (messageId : Uuid) (reason : AppError) : AppError :=
  .context ("cannot dispatch " ++ bracketed e.type ++ " " ++
      ("event " ++ bracketed e.id ++ " for message " ++ bracketed (toString messageId)))
    (.domain (.eventHandler (Listener.signature k) e.id (.app reason)))

theorem isNotFound_undispatched (k : EventKind) (e : Envelope) (messageId : Uuid)
    (reason : AppError) : (undispatched k e messageId reason).isNotFound = reason.isNotFound := by
  simp only [undispatched, AppError.isNotFound, Cause.isNotFound]

theorem isRetriable_undispatched (k : EventKind) (e : Envelope) (messageId : Uuid)
    (reason : AppError) : (undispatched k e messageId reason).isRetriable = reason.isRetriable := by
  simp only [undispatched, AppError.isRetriable, Cause.isRetriable]

/-- The event of an emission that begins in this world. -/
def emitted (source : String) (p : Payload) (w : World) : Envelope :=
  .ofPayload (a.ids w.draws) (a.clock w.readings) source p

/-- The world in which the listener gets the event. -/
def announcing (e : Envelope) (w : World) : World :=
  { w with
    draws := w.draws + 1, readings := w.readings + 1, announced := w.announced ++ [e] }

/-- The listener deals with the event of an emission, and then the message is loaded. -/
theorem run_emit (source : String) (p : Payload) {w : World} (running : w.cancelled = false) :
    let e := emitted a source p w
    ((inPlace config).emit source p).run a w =
      match (Listener.handle config.updateRetries.toNat p.kind e).run a (announcing e w) with
      | (.done (.ok ()), w') =>
          (reload config.reloadInterval p.messageId config.reloadAttempts.toNat).run a w'
      | (.done (.error reason), w') =>
          (.done (.error (undispatched p.kind e p.messageId reason)),
            { w' with lines := w'.lines ++ [Registry.failureLine e
                (.eventHandler (Listener.signature p.kind) e.id (.app reason))] })
      | (.aborted text, w') => (.aborted text, w') := by
  intro e
  simp only [emit, Program.run_freshId, Program.run_now, dispatch, bind_assoc,
    Program.run_isCancelled, running, Bool.false_eq_true, if_false]
  rw [Program.run_bind, run_transport a config (k := p.kind) rfl, ← running]
  simp only [announcing, e, emitted]
  rcases (Listener.handle config.updateRetries.toNat p.kind _).run a _ with ⟨answer | text, w'⟩
  · cases answer <;> rfl
  · rfl

section New

variable {a} (source : String) {p : Payload} {w : World} (running : w.cancelled = false)
  (vacant : w.log.slots.find? (Listener.keyOf p.kind (emitted a source p w)) = none)

include running vacant

theorem run_emit_of_ok {m : Message}
    (done : (p.written.deed (a.clock w.readings)).effect w.messages (a.clock (w.readings + 1)) =
      .done (.ok m)) :
    let e := emitted a source p w
    ∃ h lines readings, Listener.IsRecordOf p.kind e h ∧
      ((inPlace config).emit source p).run a w =
        (.done (.ok m),
          { announcing e w with
            messages := w.messages.put m, log := w.log.settle h, lines, readings
            draws := w.draws + 2 }) := by
  intro e
  have carries : e.Carries p.kind p.written := Envelope.ofPayload_carries ..
  have tried : Listener.trial w.messages (a.clock (w.readings + 1)) p.kind e = .done (.ok m) := by
    rw [Listener.trial_of_carries carries]
    exact done
  have named : m.id = p.messageId := by
    rw [← p.messageId_written, ← Payload.deed_messageId (a.clock w.readings)]
    exact Deed.id_of_makes (Deed.effect_eq_ok_iff.mp done)
  obtain ⟨h, lines, readings, about, handled⟩ := Listener.run_handle_of_ok a
    config.updateRetries.toNat (w := announcing e w) (.inl vacant) tried
  refine ⟨h, lines, readings, about, ?_⟩
  rw [run_emit a config source p running, handled]
  rcases run_reload a config.reloadInterval p.messageId config.reloadAttempts.toNat
    { announcing e w with
      messages := w.messages.put m, log := w.log.settle h, lines, readings
      draws := w.draws + 2 } with
    ⟨n, found, loaded⟩ | ⟨missing, _⟩
  · rw [MessageStore.find?_put, if_pos named.symm] at found
    cases found
    exact loaded
  · rw [MessageStore.find?_put, if_pos named.symm] at missing
    cases missing

theorem run_emit_of_error {reason : AppError}
    (failed : (p.written.deed (a.clock w.readings)).effect w.messages (a.clock (w.readings + 1)) =
      .done (.error reason)) :
    let e := emitted a source p w
    ∃ lines readings, ((inPlace config).emit source p).run a w =
      (.done (.error (undispatched p.kind e p.messageId (Listener.unapplied p.kind e reason))),
        { announcing e w with lines, readings }) := by
  intro e
  have carries : e.Carries p.kind p.written := Envelope.ofPayload_carries ..
  have tried : Listener.trial w.messages (a.clock (w.readings + 1)) p.kind e =
      .done (.error reason) := by
    rw [Listener.trial_of_carries carries]
    exact failed
  obtain ⟨lines, readings, handled⟩ := Listener.run_handle_of_error a
    config.updateRetries.toNat (w := announcing e w) (.inl vacant) tried
  refine ⟨lines ++ [Registry.failureLine e (.eventHandler (Listener.signature p.kind) e.id
    (.app (Listener.unapplied p.kind e reason)))], readings, ?_⟩
  rw [run_emit a config source p running, handled]
  simp only [announcing, ListenerLog.clear_of_vacant vacant, e]

theorem run_emit_of_aborted {text : String}
    (aborted : (p.written.deed (a.clock w.readings)).effect w.messages (a.clock (w.readings + 1)) =
      .aborted text) :
    let e := emitted a source p w
    ∃ lines readings, ((inPlace config).emit source p).run a w =
      (.aborted text,
        { announcing e w with
          log := w.log.take (Listener.keyOf p.kind e) w.uptime, lines, readings }) := by
  intro e
  have carries : e.Carries p.kind p.written := Envelope.ofPayload_carries ..
  have tried : Listener.trial w.messages (a.clock (w.readings + 1)) p.kind e = .aborted text := by
    rw [Listener.trial_of_carries carries]
    exact aborted
  obtain ⟨lines, readings, handled⟩ := Listener.run_handle_of_aborted a
    config.updateRetries.toNat (w := announcing e w) (.inl vacant) tried
  refine ⟨lines, readings, ?_⟩
  rw [run_emit a config source p running, handled]
  rfl

end New

/-- An operation by way of its event and the operation itself, both from the world `w`, come to the
same. The event costs one record. -/
inductive Agree (w : World) (event direct : Outcome (Except AppError Message) × World) : Prop
  | ok {m : Message} {h : HandledEvent} (answer : event.1 = .done (.ok m))
      (directAnswer : direct.1 = .done (.ok m)) (messages : event.2.messages = direct.2.messages)
      (stored : event.2.messages.find? m.id = some m)
      (new : w.log.slots.find? (ListenerLog.keyOf h) = none) (log : event.2.log = w.log.settle h)
      (recorded : event.2.log.handled.Perm (h :: w.log.handled)) (directLog : direct.2.log = w.log)
  | failed {e reason : AppError} (answer : event.1 = .done (.error e))
      (directAnswer : direct.1 = .done (.error reason)) (messages : event.2.messages = w.messages)
      (directMessages : direct.2.messages = w.messages) (log : event.2.log = w.log)
      (directLog : direct.2.log = w.log) (isNotFound : e.isNotFound = reason.isNotFound)
      (isRetriable : e.isRetriable = reason.isRetriable)

theorem Agree.answer {w : World} {event direct : Outcome (Except AppError Message) × World}
    (agree : Agree w event direct) {m : Message} (direct : direct.1 = .done (.ok m)) :
    event.1 = .done (.ok m) := by
  cases agree with
  | ok answer directAnswer =>
      cases direct.symm.trans directAnswer
      exact answer
  | failed _ directAnswer => cases direct.symm.trans directAnswer

section Agree

variable {a : Ambient} {config : ServiceConfig} {w : World} {now : Timestamp}

/-- The emission may begin some way on, as long as messages and log are those of `w`. -/
theorem agree_emit {source : String} {p : Payload} {v : World}
    {direct : Outcome (Except AppError Message) × World} (running : v.cancelled = false)
    (vacant : v.log.slots.find? (Listener.keyOf p.kind (emitted a source p v)) = none)
    (steady : ∀ n, a.clock n = now) (messages : v.messages = w.messages) (log : v.log = w.log)
    (room : (p.written.deed now).HasRoom w.messages)
    (ran : ∃ readings, direct =
      let effect := (p.written.deed now).effect w.messages now
      (effect, { w with messages := w.messages.after effect, readings })) :
    Agree w (((inPlace config).emit source p).run a v) direct := by
  obtain ⟨readings, rfl⟩ := ran
  have same : (p.written.deed (a.clock v.readings)).effect v.messages (a.clock (v.readings + 1)) =
      (p.written.deed now).effect w.messages now := by
    rw [steady, steady, messages]
  cases outcome : (p.written.deed now).effect w.messages now with
  | aborted text => exact absurd outcome (room.effect_ne_aborted now text)
  | done answer =>
      cases answer with
      | error reason =>
          obtain ⟨lines, readings, emitted⟩ :=
            run_emit_of_error config source running vacant (same.trans outcome)
          rw [emitted]
          refine .failed rfl rfl messages rfl log rfl ?_ ?_
          · exact isNotFound_undispatched ..
          · exact isRetriable_undispatched ..
      | ok m =>
          obtain ⟨h, lines, readings, about, emitted⟩ :=
            run_emit_of_ok config source running vacant (same.trans outcome)
          rw [← about.keyOf, log] at vacant
          rw [emitted]
          refine .ok rfl rfl ?_ ?_ vacant ?_ ?_ rfl
          · simp only [MessageStore.after, messages]
          · simp
          · simp only [log]
          · simp only [log]
            refine ListenerLog.handled_settle fun h found => ?_
            rw [vacant] at found
            cases found

theorem agree_send (config : ServiceConfig) (uncancelled : w.cancelled = false)
    (fresh : w.Fresh a 2) (steady : ∀ n, a.clock n = now) (p : SendRequest) :
    Agree w (((inPlace config).send p).run a w)
      ((Lifecycle.storeSent
        ⟨a.ids w.draws, p.owner, p.contact, p.content, p.requestReceivedAt.written⟩).run a w) := by
  refine agree_emit (v := { w with draws := w.draws + 1 }) uncancelled
    (fresh.vacant 1 (by decide) _) steady rfl rfl trivial ⟨w.readings + 1, ?_⟩
  rw [← steady w.readings]
  exact Lifecycle.run_store ..

theorem agree_receive (config : ServiceConfig) (uncancelled : w.cancelled = false)
    (fresh : w.Fresh a 2) (steady : ∀ n, a.clock n = now) (p : Receipt) :
    Agree w (((inPlace config).receive p).run a w)
      ((Lifecycle.storeReceived
        ⟨a.ids w.draws, p.owner, p.contact, p.content, p.timestamp.written⟩).run a w) := by
  refine agree_emit (v := { w with draws := w.draws + 1 }) uncancelled
    (fresh.vacant 1 (by decide) _) steady rfl rfl trivial ⟨w.readings + 1, ?_⟩
  rw [← steady w.readings]
  exact Lifecycle.run_store ..

end Agree

/-- Each operation that goes by way of an event agrees with the operation that the event stands for,
with the time that the event tells. A move needs room in the counters of its message. -/
structure Refines (a : Ambient) (config : ServiceConfig) (w : World) (now : Timestamp) : Prop where
  send (p : SendRequest) :
    Agree w (((inPlace config).send p).run a w)
      ((Lifecycle.storeSent
        ⟨a.ids w.draws, p.owner, p.contact, p.content, p.requestReceivedAt.written⟩).run a w)
  receive (p : Receipt) :
    Agree w (((inPlace config).receive p).run a w)
      ((Lifecycle.storeReceived
        ⟨a.ids w.draws, p.owner, p.contact, p.content, p.timestamp.written⟩).run a w)
  handOut (source : String) (m : Message)
      (room : (Deed.move m.id (.attempt now)).HasRoom w.messages) :
    Agree w (((inPlace config).handOut source m).run a w)
      ((Lifecycle.transition m.id (.attempt now) config.updateRetries.toNat).run a w)
  report (m : Message) (p : PhoneReport) (about : p.messageId = m.id) (sent : p.report = .sent)
      (room : (Deed.move m.id (.confirm p.timestamp.written)).HasRoom w.messages) :
    Agree w (((inPlace config).report m p).run a w)
      ((Lifecycle.transition m.id (.confirm p.timestamp.written)
        config.updateRetries.toNat).run a w)

theorem eventPath_refines (a : Ambient) (config : ServiceConfig) (w : World) (now : Timestamp)
    (uncancelled : w.cancelled = false) (fresh : w.Fresh a 2) (steady : ∀ n, a.clock n = now) :
    Refines a config w now where
  send := agree_send config uncancelled fresh steady
  receive := agree_receive config uncancelled fresh steady
  handOut source m room := by
    have moved := Lifecycle.run_transition a m.id (.attempt now) config.updateRetries.toNat w
    rw [steady] at moved
    exact agree_emit uncancelled (fresh.vacant 0 (by decide) _) steady rfl rfl room moved
  report m p about sent room := by
    have moved := Lifecycle.run_transition a m.id (.confirm p.timestamp.written)
      config.updateRetries.toNat w
    rw [steady] at moved
    simp only [report, ne_eq, about, not_true_eq_false, if_false, sent]
    exact agree_emit uncancelled (fresh.vacant 0 (by decide) _) steady rfl rfl room moved

/-- A world with a message that waits for a phone, which can be handed out. -/
theorem eventPath_refines_waiting :
    let m := Message.mobileTerminated ⟨⟨7⟩, "+1000", "+2000", "hi", .epoch⟩ .epoch
    let w : World := { messages := (∅ : MessageStore).put m }
    let a : Ambient := ⟨fun _ => .epoch, fun n => ⟨n⟩⟩
    (w.cancelled = false ∧ w.Fresh a 2 ∧ (∀ n, a.clock n = .epoch) ∧
        (Deed.move m.id (.attempt .epoch)).HasRoom w.messages) ∧
      Refines a {} w .epoch ∧
      Agree w (((inPlace {}).handOut "phone" m).run a w)
        ((Lifecycle.transition m.id (.attempt .epoch) 3).run a w) := by
  intro m w a
  have fresh : w.Fresh a 2 := ⟨by decide, fun _ _ _ => rfl⟩
  have room : (Deed.move m.id (.attempt .epoch)).HasRoom w.messages := by
    intro n found _
    rw [show w.messages.find? m.id = some m from rfl] at found
    cases found
    exact ⟨by decide, by decide⟩
  have refines := eventPath_refines a {} w .epoch rfl fresh fun _ => rfl
  exact ⟨⟨rfl, fresh, fun _ => rfl, room⟩, refines, refines.handOut "phone" m room⟩

/-- A counter that is at its end breaks off the listener after its claim, which stays in the log. -/
theorem handOut_strands_claim {a : Ambient} {w : World} (config : ServiceConfig) {m n : Message}
    (uncancelled : w.cancelled = false) (fresh : w.Fresh a 2)
    (stored : w.messages.find? m.id = some n) (allowed : n.status ∈ Status.attemptAllowed)
    (full : n.sendAttemptCount.toNat + 1 = UInt32.size) (source : String) :
    let event := ((inPlace config).handOut source m).run a w
    event.1 = .aborted counterOverflow ∧ event.2.log ≠ w.log := by
  have vacant := fresh.vacant 0 (by decide) .phoneSending
  have aborted : (Deed.move m.id (.attempt (a.clock w.readings))).effect w.messages
      (a.clock (w.readings + 1)) = .aborted counterOverflow :=
    Deed.effect_move_of_not_hasRoom _ stored allowed fun room => by
      have := room.2
      omega
  obtain ⟨lines, readings, emitted⟩ := run_emit_of_aborted config source
    (p := .phoneSending (.ofMessage m)) uncancelled vacant aborted
  refine ⟨congrArg Prod.fst emitted, fun same => ?_⟩
  let key := Listener.keyOf .phoneSending
    (Service.emitted a source (.phoneSending (.ofMessage m)) w)
  have kept : w.log.take key w.uptime = w.log :=
    (congrArg (fun ended => ended.2.log) emitted).symm.trans same
  have claimed := ListenerLog.find?_take w.log key key w.uptime
  rw [kept, if_pos rfl] at claimed
  cases vacant.symm.trans claimed

/-- The direct way answers at the last attempt what the way of the event does not: a store with no
room for one more try can be reached, and there a claim is left. The text of a leap second within a
minute tells another time than the one that was asked for. -/
theorem eventPath_diverges :
    let a : Ambient := ⟨fun _ => .epoch, fun n => ⟨BitVec.ofNat 128 n⟩⟩
    let d : NewMessage := ⟨⟨7⟩, "+1000", "+2000", "hi", .epoch⟩
    let m := Message.mobileTerminated d .epoch
    let store : Step := { command := .storeSent d, distinct := trivial }
    let attempt : Step := { command := .move d.id (.attempt .epoch), distinct := trivial }
    let w := (Course.run a {} (store :: List.replicate 4294967295 attempt)).world
    let p : SendRequest :=
      ⟨"+1000", "+2000", "hi", "api", { day := 19844, second := 86164, nano := 1333333333 }⟩
    ((w.cancelled = false ∧ w.Fresh a 2) ∧
        (((inPlace {}).handOut "phone" m).run a w).2.log ≠ w.log ∧
        ¬ Agree w (((inPlace {}).handOut "phone" m).run a w)
          ((Lifecycle.transition m.id (.attempt .epoch) 3).run a w)) ∧
      ¬ Agree {} (((inPlace {}).send p).run a {})
        ((Lifecycle.storeSent
          ⟨a.ids 0, p.owner, p.contact, p.content, p.requestReceivedAt⟩).run a {}) := by
  intro a d m store attempt w p
  have tried : Course.Tried w m.id 4294967295 := Course.tried_run a {} d .epoch (by decide)
  clear_value w
  have fresh (v : World) (draws : v.draws = 0) (slots : ∀ key, v.log.slots.find? key = none) :
      v.Fresh a 2 := by
    refine ⟨?_, fun _ _ _ => slots _⟩
    rw [draws]
    decide
  obtain ⟨n, stored, allowed, _, count⟩ := tried.message
  obtain ⟨broken, stranded⟩ := handOut_strands_claim {} tried.uncancelled
    (fresh w tried.draws tried.slots) stored allowed (by rw [count]) "phone"
  refine ⟨⟨⟨tried.uncancelled, fresh w tried.draws tried.slots⟩, stranded, ?_⟩, ?_⟩
  · intro agree
    cases agree with
    | ok answer => cases broken.symm.trans answer
    | failed answer => cases broken.symm.trans answer
  · intro agree
    have told := agree_send {} rfl (fresh {} rfl fun _ => rfl) (fun _ => rfl) p
    have same := Except.ok.inj (Outcome.done.inj ((told.answer rfl).symm.trans (agree.answer rfl)))
    have late : ¬ p.requestReceivedAt.IsWritten := by decide
    exact late (Timestamp.written_eq_self_iff.mp (congrArg Message.requestReceivedAt same))

end Service

end SmsTracking
