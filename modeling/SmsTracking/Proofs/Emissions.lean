import SmsTracking.Proofs.Deliveries
import SmsTracking.Proofs.Routes
import SmsTracking.Proofs.Wire.Payload
import SmsTracking.Service.Batch

/-!
What the service does by way of events where the listener deals with them in place. An emission that
is not cancelled announces one event, the listener receives it, and the message is then loaded. The
event brings the payload as it is written. Main statement: the answer is a message exactly if the
listener took the event and the message is there (`emission_emit`).
-/

namespace SmsTracking

namespace ListenerLog

variable {log : ListenerLog} {key : ListenerKey} {now : Instant}

theorem Free.has (free : log.Free key now) : log.has key = false := by
  rcases free with vacant | ⟨claimedAt, slot, _⟩
  · simp only [ListenerLog.has, vacant]
  · simp only [ListenerLog.has, slot]

theorem has_settle (log : ListenerLog) (e : HandledEvent) (key : ListenerKey) :
    (log.settle e).has key = if key = keyOf e then true else log.has key := by
  by_cases own : key = keyOf e <;> simp [has, own]

theorem Free.has_clear (free : log.Free key now) (other : ListenerKey) :
    (log.clear key).has other = log.has other := by
  by_cases own : other = key
  · subst own
    rw [free.has]
    simp [ListenerLog.has]
  · simp [ListenerLog.has, own]

theorem Free.has_take (free : log.Free key now) (other : ListenerKey) :
    (log.take key now).has other = log.has other := by
  by_cases own : other = key
  · subst own
    rw [free.has]
    simp [ListenerLog.has]
  · simp [ListenerLog.has, own]

end ListenerLog

def Outcome.succeeded {ε α : Type} : Outcome (Except ε α) → Bool
  | .done (.ok _) => true
  | .done (.error _) | .aborted _ => false

namespace Listener

/-- What a delivery does to the messages and to the records: an event that is recorded is not dealt
with again, the deed of another one is done and recorded, and a failure leaves both alone. -/
inductive Received (k : EventKind) (e : Envelope) (w w' : World) : Bool → Prop where
  | repeated (known : w.log.has (keyOf k e) = true) (messages : w'.messages = w.messages)
      (log : w'.log = w.log) : Received k e w w' true
  | first {p : Payload} {m : Message} {now : Timestamp} (unknown : w.log.has (keyOf k e) = false)
      (decoded : e.payloadAs k = .ok p)
      (makes : (p.deed e.time).Makes now (w.messages.find? p.messageId) m)
      (messages : w'.messages = w.messages.put m)
      (log : ∀ key, w'.log.has key = if key = keyOf k e then true else w.log.has key) :
      Received k e w w' true
  | failed (messages : w'.messages = w.messages) (log : ∀ key, w'.log.has key = w.log.has key) :
      Received k e w w' false

/-- Nothing but the messages and the log matters here. -/
theorem Received.of_same {k : EventKind} {e : Envelope} {v v' w w' : World} {success : Bool}
    (received : Received k e v v' success) (messages : v.messages = w.messages)
    (log : v.log = w.log) (messages' : w'.messages = v'.messages) (log' : w'.log = v'.log) :
    Received k e w w' success := by
  cases received with
  | repeated known same sameLog =>
      exact .repeated (log ▸ known) (by rw [messages', same, messages]) (by rw [log', sameLog, log])
  | first unknown decoded makes put recorded =>
      refine .first (log ▸ unknown) decoded (messages ▸ makes) (by rw [messages', put, messages]) ?_
      rw [log', ← log]
      exact recorded
  | failed same sameLog =>
      refine .failed (by rw [messages', same, messages]) ?_
      rw [log', ← log]
      exact sameLog

theorem received_handle (a : Ambient) (retries : Nat) (k : EventKind) (e : Envelope) (w : World) :
    let ended := (handle retries k e).run a w
    Received k e w ended.2 ended.1.succeeded ∧ ended.2.announced = w.announced ∧
      ended.2.cancelled = w.cancelled := by
  rcases w.log.slot_cases (keyOf k e) w.uptime with ⟨h, slot⟩ | ⟨claimedAt, slot, running⟩ | free
  · rw [run_handle_of_handled a retries slot]
    exact ⟨.repeated (ListenerLog.has_iff.mpr ⟨h, slot⟩) rfl rfl, rfl, rfl⟩
  · rw [run_handle_of_running a retries slot running]
    exact ⟨.failed rfl fun _ => rfl, rfl, rfl⟩
  · cases outcome : trial w.messages (a.clock w.readings) k e with
    | aborted text =>
        obtain ⟨lines, readings, ran⟩ := run_handle_of_aborted a retries free outcome
        rw [ran]
        exact ⟨.failed rfl free.has_take, rfl, rfl⟩
    | done answer =>
        cases answer with
        | error reason =>
            obtain ⟨lines, readings, ran⟩ := run_handle_of_error a retries free outcome
            rw [ran]
            exact ⟨.failed rfl free.has_clear, rfl, rfl⟩
        | ok m =>
            obtain ⟨h, lines, readings, about, ran⟩ := run_handle_of_ok a retries free outcome
            obtain ⟨p, decoded, makes⟩ := trial_eq_ok_iff.mp outcome
            rw [ran]
            refine ⟨.first free.has decoded makes rfl fun key => ?_, rfl, rfl⟩
            rw [ListenerLog.has_settle, about.keyOf]

end Listener

theorem EventKind.ofName?_eq_none_iff {type : String} :
    ofName? type = none ↔ ∀ k : EventKind, type ≠ k.name := by
  constructor
  · rintro unknown k rfl
    rw [k.ofName?_name] at unknown
    cases unknown
  · intro other
    cases named : ofName? type with
    | none => rfl
    | some k => exact absurd (name_of_ofName? named).symm (other k)

namespace Listener

/-! Registries in which the handlers of the listener are registered, in any order and however often -/

section Registered

variable {retries : Nat} {hs : List (Handler Program)}

theorem mem_handlers_iff {h : Handler Program} :
    h ∈ handlers retries ↔ ∃ k, h = handler retries k := by
  rw [handlers, List.mem_map]
  constructor
  · rintro ⟨k, _, rfl⟩
    exact ⟨k, rfl⟩
  · rintro ⟨k, rfl⟩
    exact ⟨k, k.mem_all, rfl⟩

theorem general_registered (exactly : ∀ h, h ∈ hs ↔ h ∈ handlers retries) :
    (Registry.ofList hs).general.values = [] := by
  have none : hs.filter (·.asksForAll) = [] := by
    refine List.filter_eq_nil_iff.mpr fun h mem => ?_
    obtain ⟨k, rfl⟩ := mem_handlers_iff.mp ((exactly h).mp mem)
    exact Bool.false_ne_true
  have listed := Registry.general_ofList hs
  rw [none] at listed
  exact listed.eq_nil

theorem matching_registered (exactly : ∀ h, h ∈ hs ↔ h ∈ handlers retries) (k : EventKind) :
    (Registry.ofList hs).matching k.name = [handler retries k] := by
  rw [Registry.matching, general_registered exactly, List.append_nil, Registry.boundTo_ofList]
  refine Handler.latest_of_forall_eq (fun h mem => ?_) ?_
  · obtain ⟨registered, asks⟩ := List.mem_filter.mp mem
    obtain ⟨l, rfl⟩ := mem_handlers_iff.mp ((exactly h).mp registered)
    have same : l.name = k.name := by simpa [Handler.asksFor, handler] using asks
    rw [EventKind.name_inj.mp same]
  · have registered : handler retries k ∈ hs := (exactly _).mpr (mem_handlers_iff.mpr ⟨k, rfl⟩)
    exact List.ne_nil_of_mem
      (List.mem_filter.mpr ⟨registered, by simp [Handler.asksFor, handler]⟩)

theorem matching_registered_of_unknown (exactly : ∀ h, h ∈ hs ↔ h ∈ handlers retries)
    {type : String} (unknown : EventKind.ofName? type = none) :
    (Registry.ofList hs).matching type = [] := by
  have none : hs.filter (·.asksFor type) = [] := by
    refine List.filter_eq_nil_iff.mpr fun h mem asks => ?_
    obtain ⟨k, rfl⟩ := mem_handlers_iff.mp ((exactly h).mp mem)
    refine EventKind.ofName?_eq_none_iff.mp unknown k ?_
    simpa [Handler.asksFor, handler, eq_comm] using asks
  rw [Registry.matching, general_registered exactly, Registry.boundTo_ofList, none]
  rfl

end Registered

theorem matching_handlers (retries : Nat) (k : EventKind) :
    (Registry.ofList (handlers retries)).matching k.name = [handler retries k] :=
  matching_registered (fun _ => Iff.rfl) k

theorem matching_handlers_of_unknown (retries : Nat) {type : String}
    (unknown : EventKind.ofName? type = none) :
    (Registry.ofList (handlers retries)).matching type = [] :=
  matching_registered_of_unknown (fun _ => Iff.rfl) unknown

end Listener

theorem completions_singleton {α : Type} (limit : Nat) (picks : List Nat) (job : α) :
    completions limit picks [job] = [job] :=
  (completions_perm limit picks [job]).eq_singleton

theorem Registry.dispatch_of_none {r : Registry Program} {e : Envelope}
    (none : r.matching e.type = []) (limit : Nat) (picks : List Nat) :
    r.dispatch limit picks e = pure (.ok ()) := by
  rw [dispatch, none, completions]
  rfl

namespace Listener

/-- What is told where the handler of a kind is the only one, after it has answered. -/
def relay (k : EventKind) (e : Envelope) :
    Except AppError Unit → Program (Except DomainError Unit)
  | .ok () => pure (.ok ())
  | .error reason => do
      let failure := DomainError.eventHandler (signature k) e.id (.app reason)
      MonadJournal.write (Registry.failureLine e failure)
      pure (.error failure)

theorem dispatch_of_matching {r : Registry Program} {retries : Nat} {k : EventKind} {e : Envelope}
    (only : r.matching e.type = [handler retries k]) (limit : Nat) (picks : List Nat) :
    r.dispatch limit picks e = handle retries k e >>= relay k e := by
  simp only [Registry.dispatch, only, completions_singleton, List.mapM_cons, List.mapM_nil,
    Registry.attempt, handler, bind_assoc]
  refine congrArg _ (funext fun answer => ?_)
  cases answer <;> rfl

theorem dispatch_handlers {k : EventKind} {e : Envelope} (kind : e.type = k.name) (retries : Nat)
    (limit : Nat) (picks : List Nat) :
    (Registry.ofList (handlers retries)).dispatch limit picks e = handle retries k e >>= relay k e :=
  dispatch_of_matching (kind ▸ matching_handlers retries k) limit picks

theorem run_handle_relay (a : Ambient) (retries : Nat) (k : EventKind) (e : Envelope) (w : World) :
    (handle retries k e >>= relay k e).run a w =
      match (handle retries k e).run a w with
      | (.done (.ok ()), w) => (.done (.ok ()), w)
      | (.done (.error reason), w) =>
          let failure := DomainError.eventHandler (signature k) e.id (.app reason)
          (.done (.error failure),
            { w with lines := w.lines ++ [Registry.failureLine e failure] })
      | (.aborted text, w) => (.aborted text, w) := by
  rw [Program.run_bind]
  rcases (handle retries k e).run a w with ⟨(answer | text), w'⟩
  · cases answer <;> rfl
  · rfl

end Listener

namespace Service

variable (a : Ambient) (config : ServiceConfig)

/-- An event of a kind goes to the handler of this kind, whose failure costs a line. -/
theorem run_transport {k : EventKind} {e : Envelope} (kind : e.type = k.name) (w : World) :
    ((inPlace config).transport e).run a w =
      match (Listener.handle config.updateRetries.toNat k e).run a
          { w with announced := w.announced ++ [e] } with
      | (.done (.ok ()), w) => (.done (.ok ()), w)
      | (.done (.error reason), w) =>
          let failure := DomainError.eventHandler (Listener.signature k) e.id (.app reason)
          (.done (.error failure),
            { w with lines := w.lines ++ [Registry.failureLine e failure] })
      | (.aborted text, w) => (.aborted text, w) := by
  simp only [inPlace, Transport.inPlace, Transport.announcing, Program.run_announce,
    Listener.dispatch_handlers kind]
  exact Listener.run_handle_relay ..

/-- An event that nobody asks for has been dispatched at once. -/
theorem run_transport_of_unknown {e : Envelope} (unknown : EventKind.ofName? e.type = none)
    (w : World) :
    ((inPlace config).transport e).run a w =
      (.done (.ok ()), { w with announced := w.announced ++ [e] }) := by
  simp only [inPlace, Transport.inPlace, Transport.announcing, Program.run_announce,
    Registry.dispatch_of_none (Listener.matching_handlers_of_unknown _ unknown)]
  rfl

theorem received_transport {k : EventKind} {e : Envelope} (kind : e.type = k.name) (w : World) :
    let ended := ((inPlace config).transport e).run a w
    Listener.Received k e w ended.2 ended.1.succeeded ∧ ended.2.announced = w.announced ++ [e] ∧
      ended.2.cancelled = w.cancelled := by
  obtain ⟨received, announced, cancelled⟩ := Listener.received_handle a
    config.updateRetries.toNat k e { w with announced := w.announced ++ [e] }
  rw [run_transport a config kind]
  generalize (Listener.handle config.updateRetries.toNat k e).run a
    { w with announced := w.announced ++ [e] } = ended at *
  obtain ⟨o, w'⟩ := ended
  match o with
  | .done (.ok ()) | .done (.error _) | .aborted _ =>
      exact ⟨received.of_same rfl rfl rfl rfl, announced, cancelled⟩

/-- A message that is there is found, and one that is not is not waited for in vain. -/
theorem run_reload (interval : Span) (id : Uuid) (attempts : Nat) (w : World) :
    (∃ m, w.messages.find? id = some m ∧
      (reload interval id attempts).run a w = (.done (.ok m), w)) ∨
    w.messages.find? id = none ∧
      ∃ reason, (reload interval id attempts).run a w = (.done (.error reason), w) := by
  cases found : w.messages.find? id with
  | some m =>
      refine .inl ⟨m, rfl, ?_⟩
      cases attempts <;>
        simp only [reload, look, Program.run_load, MessageStore.load_of_find? found,
          Program.run_pure]
  | none =>
      refine .inr ⟨rfl, ?_⟩
      induction attempts with
      | zero =>
          simp only [reload, look, Program.run_load, MessageStore.load_of_vacant found]
          exact ⟨_, rfl⟩
      | succ attempts ih =>
          simp only [reload, look, Program.run_load, MessageStore.load_of_vacant found,
            Program.run_pause, DomainError.noMessage]
          split
          · exact ⟨_, rfl⟩
          · exact ih

end Service

/-- An event of the kind from which this payload is read. -/
structure Envelope.Carries (e : Envelope) (k : EventKind) (p : Payload) : Prop where
  kind : e.type = k.name
  decoded : e.payloadAs k = .ok p

theorem Envelope.ofPayload_carries (id : Uuid) (now : Timestamp) (source : String) (p : Payload) :
    (ofPayload id now source p).Carries p.kind p.written :=
  ⟨rfl, payloadAs_ofPayload id now source p⟩

/-- What an emission leaves. -/
inductive Emission (p : Payload) (w w' : World) : Outcome (Except AppError Message) → Prop where
  | cancelled {reason : AppError} (messages : w'.messages = w.messages) (log : w'.log = w.log)
      (announced : w'.announced = w.announced) : Emission p w w' (.done (.error reason))
  | taken {e : Envelope} {m : Message} (carries : e.Carries p.kind p)
      (announced : w'.announced = w.announced ++ [e])
      (received : Listener.Received p.kind e w w' true)
      (found : w'.messages.find? p.messageId = some m) : Emission p w w' (.done (.ok m))
  | lost {e : Envelope} {success : Bool} {o : Outcome (Except AppError Message)}
      (carries : e.Carries p.kind p) (announced : w'.announced = w.announced ++ [e])
      (received : Listener.Received p.kind e w w' success)
      (vacant : success = true → w'.messages.find? p.messageId = none)
      (failure : o.succeeded = false) : Emission p w w' o

theorem Emission.of_same {p : Payload} {v w w' : World} {o : Outcome (Except AppError Message)}
    (emission : Emission p v w' o) (messages : v.messages = w.messages) (log : v.log = w.log)
    (announced : v.announced = w.announced) : Emission p w w' o := by
  cases emission with
  | cancelled same sameLog none =>
      exact .cancelled (same.trans messages) (sameLog.trans log) (none.trans announced)
  | taken carries more received found =>
      exact .taken carries (announced ▸ more) (received.of_same messages log rfl rfl) found
  | lost carries more received vacant failure =>
      exact .lost carries (announced ▸ more) (received.of_same messages log rfl rfl) vacant failure

namespace Service

variable (a : Ambient) (config : ServiceConfig)

theorem run_dispatch_of_cancelled {w : World} (cancelled : w.cancelled = true) (id : Uuid)
    (e : Envelope) :
    ∃ reason, ((inPlace config).dispatch id e).run a w = (.done (.error reason), w) := by
  simp only [dispatch, Program.run_isCancelled, cancelled, if_true]
  exact ⟨_, rfl⟩

theorem received_dispatch {k : EventKind} {e : Envelope} (kind : e.type = k.name) {w : World}
    (running : w.cancelled = false) (id : Uuid) :
    let ended := ((inPlace config).dispatch id e).run a w
    Listener.Received k e w ended.2 ended.1.succeeded ∧ ended.2.announced = w.announced ++ [e] ∧
      ended.2.cancelled = w.cancelled := by
  have handled := received_transport a config kind w
  simp only [dispatch, Program.run_isCancelled, running, Bool.false_eq_true, if_false]
  rw [Program.run_bind, ← running]
  generalize ((inPlace config).transport e).run a w = ended at *
  obtain ⟨o, w'⟩ := ended
  match o with
  | .done (.ok ()) | .done (.error _) | .aborted _ => exact handled

theorem emission_emit (source : String) (p : Payload) (w : World) :
    let ended := ((inPlace config).emit source p).run a w
    Emission p.written w ended.2 ended.1 ∧ ended.2.cancelled = w.cancelled := by
  simp only [emit, Program.run_freshId, Program.run_now]
  rw [Program.run_bind]
  generalize carried : Envelope.ofPayload (a.ids w.draws) (a.clock w.readings) source p = e
  have carries : e.Carries p.written.kind p.written := by
    rw [p.kind_written, ← carried]
    exact Envelope.ofPayload_carries ..
  rcases Bool.eq_false_or_eq_true w.cancelled with given | running
  · obtain ⟨reason, ran⟩ := run_dispatch_of_cancelled a config
      (w := { w with draws := w.draws + 1, readings := w.readings + 1 }) given p.messageId e
    rw [ran]
    exact ⟨.cancelled rfl rfl rfl, rfl⟩
  · obtain ⟨received, announced, cancelled⟩ := received_dispatch a config carries.kind
      (w := { w with draws := w.draws + 1, readings := w.readings + 1 }) running p.messageId
    replace received := received.of_same rfl rfl rfl rfl (w := w)
    generalize ((inPlace config).dispatch p.messageId e).run a
      { w with draws := w.draws + 1, readings := w.readings + 1 } = ended at *
    obtain ⟨o, w'⟩ := ended
    match o with
    | .done (.error _) | .aborted _ =>
        exact ⟨.lost carries announced received nofun rfl, cancelled⟩
    | .done (.ok ()) =>
        -- What is loaded is what the listener has left.
        rcases run_reload a (inPlace config).config.reloadInterval p.messageId
          (inPlace config).config.reloadAttempts.toNat w' with
          ⟨m, found, loaded⟩ | ⟨vacant, reason, loaded⟩
        · simp only [loaded]
          rw [← p.messageId_written] at found
          exact ⟨.taken carries announced received found, cancelled⟩
        · simp only [loaded]
          rw [← p.messageId_written] at vacant
          exact ⟨.lost carries announced received (fun _ => vacant) rfl, cancelled⟩

end Service

end SmsTracking
