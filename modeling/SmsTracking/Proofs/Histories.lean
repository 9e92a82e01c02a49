import SmsTracking.Proofs.ClosedForm
import SmsTracking.Proofs.Emissions
import SmsTracking.Service.Command

/-!
What has been done, by what the service has answered. A deed goes down in the history if the reply
tells that it was done; a deed that came with an event goes down only the first time that the event
was taken. Main statements: a history that tells what is stored does so again after the deed of an
operation (`Tells.deed`) or of an event (`Tells.taken`) has gone down in it.
-/

namespace SmsTracking

/-- The payload of an event that the listener has a handler for. -/
def Envelope.payload? (e : Envelope) : Option Payload :=
  (EventKind.ofName? e.type).bind fun k => (e.payloadAs k).toOption

/-- A deed that was done, with the event that it came with. -/
structure Effect where
  event : Option Envelope := none
  deed : Deed

namespace Effect

def through (es : List Envelope) (deed : Envelope → Deed) : List Effect :=
  es.map fun e => { event := some e, deed := deed e }

def ofEvent? (e : Envelope) : Option Effect :=
  e.payload?.map fun p => { event := e, deed := p.deed e.time }

/-- The attempt that is made with an event if its message was handed out. -/
def ofHandOut? (ids : List Uuid) (e : Envelope) : Option Effect :=
  e.payload?.bind fun p =>
    if p.messageId ∈ ids then
      some { event := e, deed := .move p.messageId (.attempt e.time) }
    else none

end Effect

open Effect in
/-- What a command has done, by its reply and by the events that were announced for it. What came with
an event was done with the time that the event tells. -/
def Command.effects (announced : List Envelope) : Command → Outcome Reply → List Effect
  | storeSent d, .done (.message _) => [{ deed := .create .mobileTerminated d }]
  | storeReceived d, .done (.message _) => [{ deed := .create .mobileOriginated d }]
  | .move id step, .done (.message _) => [{ deed := .move id step }]
  | send p, .done (.message m) =>
      through announced fun _ => .create .mobileTerminated
        ⟨m.id, p.owner, p.contact, p.content, p.requestReceivedAt.written⟩
  | receive p, .done (.message m) =>
      through announced fun _ => .create .mobileOriginated
        ⟨m.id, p.owner, p.contact, p.content, p.timestamp.written⟩
  | report m p, .done (.message _) =>
      through announced fun _ => .move m.id (.confirm p.timestamp.written)
  | handOut _ m, .done (.message _) => through announced fun e => .move m.id (.attempt e.time)
  | poll _, .done (.batch ms) | process _, .done (.batch ms) =>
      announced.filterMap (ofHandOut? (ms.map (·.id)))
  | deliver e, .done .nothing | dispatch e, .done .nothing => (ofEvent? e).toList
  | _, _ => []

structure History where
  /-- The events that were taken, by identifier and type. -/
  events : List (String × String) := []
  deeds : List Deed := []

namespace History

/-- An event that was taken before does nothing. -/
def add (h : History) (x : Effect) : History :=
  match x.event with
  | none => { h with deeds := h.deeds ++ [x.deed] }
  | some e =>
      if (e.id, e.type) ∈ h.events then h
      else { events := h.events ++ [(e.id, e.type)], deeds := h.deeds ++ [x.deed] }

def extend (h : History) (xs : List Effect) : History := xs.foldl add h

def about (h : History) (id : Uuid) : List Deed := h.deeds.filter (·.messageId = id)

end History

theorem Listener.signature_inj {k l : EventKind} : signature k = signature l ↔ k = l := by
  cases k <;> cases l <;> decide

theorem Envelope.Carries.payload? {e : Envelope} {k : EventKind} {p : Payload}
    (carries : e.Carries k p) : e.payload? = some p := by
  simp only [Envelope.payload?, carries.kind, EventKind.ofName?_name, Option.bind_some,
    carries.decoded, Except.toOption]

theorem Envelope.payload?_of_payloadAs {e : Envelope} {k : EventKind} {p : Payload}
    (kind : EventKind.ofName? e.type = some k) (read : e.payloadAs k = .ok p) :
    e.payload? = some p :=
  Carries.payload? ⟨(EventKind.name_of_ofName? kind).symm, read⟩

/-- The history tells what is stored and which events are recorded. -/
structure History.Tells (h : History) (w : World) : Prop where
  messages : ∀ id, ClosedForm (h.about id) (w.messages.find? id)
  events : ∀ id k, (id, k.name) ∈ h.events ↔ w.log.has ⟨id, Listener.signature k⟩ = true

namespace History

theorem extend_append (h : History) (xs ys : List Effect) :
    h.extend (xs ++ ys) = (h.extend xs).extend ys :=
  List.foldl_append

namespace Tells

variable {h : History} {w w' : World}

theorem of_same (tells : h.Tells w) (messages : w'.messages = w.messages)
    (log : ∀ key, w'.log.has key = w.log.has key) : h.Tells w' := by
  refine ⟨?_, ?_⟩
  · rw [messages]
    exact tells.messages
  · intro id k
    rw [log]
    exact tells.events id k

theorem write (tells : h.Tells w) {d : Deed} {now : Timestamp} {m : Message}
    (makes : d.Makes now (w.messages.find? d.messageId) m) (id : Uuid) :
    ClosedForm ((h.deeds ++ [d]).filter (·.messageId = id)) ((w.messages.put m).find? id) := by
  rw [List.filter_append, MessageStore.find?_put, Deed.id_of_makes makes]
  by_cases own : id = d.messageId
  · subst own
    rw [if_pos rfl, List.filter_cons_of_pos (by simp), List.filter_nil]
    exact (tells.messages d.messageId).append (fun n found => MessageStore.id_of_find? found) makes
  · rw [if_neg own, List.filter_cons_of_neg (by simpa using Ne.symm own), List.filter_nil,
      List.append_nil]
    exact tells.messages id

/-- An operation that answers with a message has done its deed. -/
theorem deed (tells : h.Tells w) {d : Deed} {now : Timestamp} {m : Message}
    (done : d.effect w.messages now = .done (.ok m)) (messages : w'.messages = w.messages.put m)
    (log : w'.log = w.log) : (h.add { deed := d }).Tells w' := by
  refine ⟨?_, ?_⟩
  · rw [messages]
    exact tells.write (Deed.effect_eq_ok_iff.mp done)
  · rw [log]
    exact tells.events

/-- An event that the listener has taken has done its deed, if it was the first time. -/
theorem taken (tells : h.Tells w) {e : Envelope} {k : EventKind} {p : Payload}
    (carries : e.Carries k p) (received : Listener.Received k e w w' true) :
    (h.add { event := some e, deed := p.deed e.time }).Tells w' := by
  have recorded := tells.events e.id k
  rw [← carries.kind] at recorded
  cases received with
  | repeated known messages log =>
      simp only [add, if_pos (recorded.mpr known)]
      exact tells.of_same messages fun key => by rw [log]
  | first unknown decoded makes messages log =>
      have new : (e.id, e.type) ∉ h.events := by
        rw [recorded]
        exact Bool.not_eq_true _ ▸ unknown
      rw [carries.decoded] at decoded
      cases decoded
      simp only [add, if_neg new]
      refine ⟨?_, ?_⟩
      · rw [messages]
        rw [← Payload.deed_messageId e.time] at makes
        exact tells.write makes
      · intro id l
        rw [log, List.mem_append, tells.events]
        simp only [List.mem_singleton, Prod.mk.injEq, carries.kind, EventKind.name_inj,
          Listener.keyOf, ListenerKey.mk.injEq, Listener.signature_inj]
        split <;> simp [*]

/-- An event that the listener has not taken does nothing, nor does one whose message is not
there. -/
theorem lost (tells : h.Tells w) {e : Envelope} {k : EventKind} {success : Bool}
    (received : Listener.Received k e w w' success)
    (vacant : ∀ p, e.payloadAs k = .ok p → success = true →
      w'.messages.find? p.messageId = none) : h.Tells w' := by
  cases received with
  | repeated _ messages log => exact tells.of_same messages fun key => by rw [log]
  | failed messages log => exact tells.of_same messages log
  | first _ decoded makes messages _ =>
      have missing := vacant _ decoded rfl
      rw [← Payload.deed_messageId e.time] at makes missing
      rw [messages, ← Deed.id_of_makes makes, MessageStore.find?_put, if_pos rfl] at missing
      cases missing

theorem lost_of_carries (tells : h.Tells w) {e : Envelope} {k : EventKind} {p : Payload}
    {success : Bool} (carries : e.Carries k p) (received : Listener.Received k e w w' success)
    (vacant : success = true → w'.messages.find? p.messageId = none) : h.Tells w' := by
  refine tells.lost received fun q decoded => ?_
  rw [carries.decoded] at decoded
  cases decoded
  exact vacant

end Tells

end History

end SmsTracking
