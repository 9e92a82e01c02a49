import SmsTracking.Proofs.Emissions
import SmsTracking.Proofs.Standing

/-!
Deliveries one after the other, each of them alone at work. Main statement: a delivery ends in one
of six ways, by which it is settled what it leaves of the messages and of the log
(`ended_handleEvent`); what each of them keeps, a sequence of deliveries keeps (`deliverAll_keeps`).
-/

namespace SmsTracking

/-- An event that is delivered after some time has passed. -/
structure Delivery where
  elapsed : Span := ⟨0⟩
  event : Envelope

/-- Whatever comes in under the key of the event is the event itself. -/
def Envelope.SoleIn (e : Envelope) (ds : List Delivery) : Prop :=
  ∀ d ∈ ds, d.event.key = e.key → d.event = e

theorem Envelope.key_eq_iff {e f : Envelope} : e.key = f.key ↔ e.id = f.id ∧ e.type = f.type := by
  simp [key, String.append_right_inj]

namespace MessageStore

/-- What one deed, if any was done, has made of the messages. -/
inductive Moved (s : MessageStore) : MessageStore → Prop
  | same : Moved s s
  | put {d : Deed} {now : Timestamp} {m : Message}
      (makes : d.Makes now (s.find? d.messageId) m) : Moved s (s.put m)

/-- A deed leaves the messages under other identifiers alone. -/
theorem find?_put_of_makes {s : MessageStore} {d : Deed} {now : Timestamp} {m : Message}
    (makes : d.Makes now (s.find? d.messageId) m) (id : Uuid) :
    (s.put m).find? id = if id = d.messageId then some m else s.find? id := by
  rw [find?_put, Deed.id_of_makes makes]

/-- A message that is there does not go away. -/
theorem Moved.present {s s' : MessageStore} (moved : s.Moved s') {id : Uuid}
    (present : ∃ n, s.find? id = some n) : ∃ n, s'.find? id = some n := by
  cases moved with
  | same => exact present
  | put makes =>
      rw [find?_put_of_makes makes]
      split
      · exact ⟨_, rfl⟩
      · exact present

/-- A message whose status is final stays as it is. -/
theorem Moved.terminal {s s' : MessageStore} (moved : s.Moved s') {id : Uuid} {n : Message}
    (found : s.find? id = some n) (final : n.status.isTerminal = true) : s'.find? id = some n := by
  cases moved with
  | same => exact found
  | @put d now m makes =>
      rw [find?_put_of_makes makes]
      split
      · rename_i same
        rw [← same, found] at makes
        cases d with
        | create direction d =>
            obtain ⟨vacant, _⟩ := makes
            cases vacant
        | move id step =>
            obtain ⟨_, ⟨rfl⟩, done⟩ := makes
            obtain ⟨allowed, _, _⟩ := Move.apply_eq_done_iff.mp done
            rw [Move.isTerminal_of_mem_allowed allowed] at final
            cases final
      · exact found

end MessageStore

namespace Listener

/-- How the delivery of `e` has ended that found the world `w` at the time `now` and left `w'`. -/
inductive Ended (now : Timestamp) (e : Envelope) (w w' : World) :
    Outcome (Except AppError Unit) → Prop
  | unknown {reason : String} (kind : EventKind.ofName? e.type = none)
      (messages : w'.messages = w.messages) (log : w'.log = w.log) :
      Ended now e w w' (.done (.error (.decode reason)))
  | repeated {h : HandledEvent} (slot : w.log.slots.find? e.key = some (.handled h))
      (messages : w'.messages = w.messages) (log : w'.log = w.log) :
      Ended now e w w' (.done (.ok ()))
  | refused {k : EventKind} {claimedAt : Instant}
      (slot : w.log.slots.find? e.key = some (.inProgress claimedAt))
      (messages : w'.messages = w.messages) (log : w'.log = w.log) :
      Ended now e w w' (.done (.error (busy k e)))
  | taken {k : EventKind} {p : Payload} {m : Message} {h : HandledEvent}
      (kind : EventKind.ofName? e.type = some k) (free : w.log.Free e.key w.uptime)
      (decoded : e.payloadAs k = .ok p)
      (makes : (p.deed e.time).Makes now (w.messages.find? p.messageId) m)
      (about : ListenerLog.keyOf h = e.key) (messages : w'.messages = w.messages.put m)
      (log : w'.log = w.log.settle h) : Ended now e w w' (.done (.ok ()))
  | failed {k : EventKind} {reason : AppError} (kind : EventKind.ofName? e.type = some k)
      (free : w.log.Free e.key w.uptime)
      (failed : trial w.messages now k e = .done (.error reason))
      (messages : w'.messages = w.messages) (log : w'.log = w.log.clear e.key) :
      Ended now e w w' (.done (.error (unapplied k e reason)))
  | brokenOff {k : EventKind} {text : String} (kind : EventKind.ofName? e.type = some k)
      (free : w.log.Free e.key w.uptime) (aborted : trial w.messages now k e = .aborted text)
      (messages : w'.messages = w.messages) (log : w'.log = w.log.take e.key w.uptime) :
      Ended now e w w' (.aborted text)

theorem ended_handle (a : Ambient) (retries : Nat) {k : EventKind} {e : Envelope}
    (kind : EventKind.ofName? e.type = some k) (w : World) :
    Ended (a.clock w.readings) e w ((handle retries k e).run a w).2
      ((handle retries k e).run a w).1 := by
  have own := keyOf_of_ofName? kind
  rcases w.log.slot_cases (keyOf k e) w.uptime with ⟨h, slot⟩ | ⟨claimedAt, slot, running⟩ | free
  · rw [run_handle_of_handled a retries slot]
    exact .repeated (own ▸ slot) rfl rfl
  · rw [run_handle_of_running a retries slot running]
    exact .refused (own ▸ slot) rfl rfl
  · cases outcome : trial w.messages (a.clock w.readings) k e with
    | aborted text =>
        obtain ⟨lines, readings, ran⟩ := run_handle_of_aborted a retries free outcome
        rw [ran]
        exact .brokenOff kind (own ▸ free) outcome rfl (by rw [own])
    | done answer =>
        cases answer with
        | error reason =>
            obtain ⟨lines, readings, ran⟩ := run_handle_of_error a retries free outcome
            rw [ran]
            exact .failed kind (own ▸ free) outcome rfl (by rw [own])
        | ok m =>
            obtain ⟨h, lines, readings, about, ran⟩ := run_handle_of_ok a retries free outcome
            obtain ⟨p, decoded, makes⟩ := trial_eq_ok_iff.mp outcome
            rw [ran]
            exact .taken kind (own ▸ free) decoded makes (about.keyOf.trans own) rfl rfl

theorem ended_handleEvent (a : Ambient) (retries : Nat) (e : Envelope) (w : World) :
    Ended (a.clock w.readings) e w ((handleEvent retries e).run a w).2
      ((handleEvent retries e).run a w).1 := by
  unfold handleEvent
  cases kind : EventKind.ofName? e.type with
  | none => exact .unknown kind rfl rfl
  | some k => exact ended_handle a retries kind w

namespace Ended

variable {now : Timestamp} {e : Envelope} {w w' : World} {o : Outcome (Except AppError Unit)}

theorem moved (ended : Ended now e w w' o) : w.messages.Moved w'.messages := by
  cases ended with
  | taken _ _ _ makes _ messages _ =>
      rw [messages]
      rw [← Payload.deed_messageId e.time] at makes
      exact .put makes
  | _ =>
      rename_i messages _
      rw [messages]
      exact .same

theorem slot_of_ne (ended : Ended now e w w' o) {key : ListenerKey} (other : key ≠ e.key) :
    w'.log.slots.find? key = w.log.slots.find? key := by
  cases ended with
  | unknown _ _ log | repeated _ _ log | refused _ _ log => rw [log]
  | taken _ _ _ _ about _ log => rw [log, ListenerLog.find?_settle, about, if_neg other]
  | failed _ _ _ _ log => rw [log, ListenerLog.find?_clear, if_neg other]
  | brokenOff _ _ _ _ log => rw [log, ListenerLog.find?_take, if_neg other]

/-- An event is recorded if it was, or if its delivery has succeeded. -/
theorem has (ended : Ended now e w w' o) (key : ListenerKey) :
    w'.log.has key = (w.log.has key || (decide (key = e.key) && o.succeeded)) := by
  by_cases own : key = e.key
  · subst own
    cases ended with
    | unknown _ _ log | refused _ _ log => rw [log]; simp [Outcome.succeeded]
    | repeated slot _ log =>
        rw [log, ListenerLog.has_iff.mpr ⟨_, slot⟩]
        rfl
    | taken _ _ _ _ about _ log => simp [log, ListenerLog.has_settle, about, Outcome.succeeded]
    | failed _ free _ _ log => rw [log, free.has_clear]; simp [Outcome.succeeded]
    | brokenOff _ free _ _ log => rw [log, free.has_take]; simp [Outcome.succeeded]
  · have same := ended.slot_of_ne own
    simp [ListenerLog.has, same, own]

/-- A recorded event is a success and changes nothing. -/
theorem of_has (ended : Ended now e w w' o) {k : EventKind}
    (kind : EventKind.ofName? e.type = some k) (has : w.log.has e.key = true) :
    o = .done (.ok ()) ∧ w'.messages = w.messages := by
  cases ended with
  | unknown unknown => simp [kind] at unknown
  | repeated _ messages => exact ⟨rfl, messages⟩
  | refused slot => simp [ListenerLog.has, slot] at has
  | taken _ free | failed _ free | brokenOff _ free => simp [free.has] at has

/-- A free event is dealt with as it would be tried. -/
theorem of_error (ended : Ended now e w w' o) {k : EventKind} {reason : AppError}
    (kind : EventKind.ofName? e.type = some k) (vacant : w.log.slots.find? e.key = none)
    (fails : trial w.messages now k e = .done (.error reason)) :
    o = .done (.error (unapplied k e reason)) ∧ w'.messages = w.messages ∧
      w'.log.slots.find? e.key = none := by
  cases ended with
  | unknown none => simp [kind] at none
  | repeated slot | refused slot => simp [vacant] at slot
  | taken kind' _ decoded makes =>
      obtain rfl : k = _ := Option.some.inj (kind.symm.trans kind')
      rw [trial_eq_ok_iff.mpr ⟨_, decoded, makes⟩] at fails
      cases fails
  | failed kind' _ failed messages log =>
      obtain rfl : k = _ := Option.some.inj (kind.symm.trans kind')
      rw [fails] at failed
      cases failed
      exact ⟨rfl, messages, by rw [log, ListenerLog.find?_clear, if_pos rfl]⟩
  | brokenOff kind' _ aborted =>
      obtain rfl : k = _ := Option.some.inj (kind.symm.trans kind')
      rw [fails] at aborted
      cases aborted

theorem of_ok (ended : Ended now e w w' o) {k : EventKind} {m : Message}
    (kind : EventKind.ofName? e.type = some k) (vacant : w.log.slots.find? e.key = none)
    (succeeds : trial w.messages now k e = .done (.ok m)) :
    o = .done (.ok ()) ∧ w'.messages = w.messages.put m := by
  cases ended with
  | unknown none => simp [kind] at none
  | repeated slot | refused slot => simp [vacant] at slot
  | taken kind' _ decoded makes _ messages =>
      obtain rfl : k = _ := Option.some.inj (kind.symm.trans kind')
      have same := succeeds.symm.trans (trial_eq_ok_iff.mpr ⟨_, decoded, makes⟩)
      cases same
      exact ⟨rfl, messages⟩
  | failed kind' _ aborted | brokenOff kind' _ aborted =>
      obtain rfl : k = _ := Option.some.inj (kind.symm.trans kind')
      rw [succeeds] at aborted
      cases aborted

end Ended

/-- What a delivery comes to. -/
def deliver (a : Ambient) (retries : Nat) (w : World) (d : Delivery) :
    Outcome (Except AppError Unit) × World :=
  (handleEvent retries d.event).run a { w with uptime := w.uptime.after d.elapsed }

/-- The world after some deliveries. -/
def deliverAll (a : Ambient) (retries : Nat) (w : World) (ds : List Delivery) : World :=
  ds.foldl (fun w d => (deliver a retries w d).2) w

section Deliver

variable (a : Ambient) (retries : Nat) {w : World}

theorem ended_deliver (w : World) (d : Delivery) :
    Ended (a.clock w.readings) d.event { w with uptime := w.uptime.after d.elapsed }
      (deliver a retries w d).2 (deliver a retries w d).1 :=
  ended_handleEvent a retries d.event { w with uptime := w.uptime.after d.elapsed }

/-- What each of the deliveries keeps, all of them keep. -/
theorem deliverAll_keeps {I : World → Prop} {ds : List Delivery}
    (step : ∀ w, ∀ d ∈ ds, I w → I (deliver a retries w d).2) (holds : I w) :
    I (deliverAll a retries w ds) := by
  induction ds generalizing w with
  | nil => exact holds
  | cons d ds ih =>
      refine ih (fun w d mem => step w d (List.mem_cons_of_mem _ mem)) ?_
      exact step w d List.mem_cons_self holds

/-- An event that nobody has claimed and whose deed can be done is taken. -/
theorem deliver_of_makes {d : Delivery} {k : EventKind} {p : Payload} {m : Message}
    (carries : d.event.Carries k p) (vacant : w.log.slots.find? d.event.key = none)
    (makes : (p.deed d.event.time).Makes (a.clock w.readings) (w.messages.find? p.messageId) m) :
    (deliver a retries w d).1 = .done (.ok ()) ∧
      (deliver a retries w d).2.messages = w.messages.put m :=
  (ended_deliver a retries w d).of_ok (carries.kind ▸ k.ofName?_name) vacant
    (trial_eq_ok_iff.mpr ⟨p, carries.decoded, makes⟩)

end Deliver

end Listener

/-- An event under this identifier that carries the payload. -/
def Envelope.carrying (id : String) (time : Timestamp) (p : Payload) : Envelope :=
  { ofPayload ⟨0⟩ time "" p with id }

theorem Envelope.carrying_carries (id : String) (time : Timestamp) (p : Payload) :
    (carrying id time p).Carries p.kind p.written :=
  ⟨rfl, by simp [carrying, payloadAs, ofPayload, new, Payload.decodeValue_data]⟩

end SmsTracking
