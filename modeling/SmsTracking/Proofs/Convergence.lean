import Mathlib.Data.List.Nodup
import Mathlib.Data.List.Perm.Subperm
import SmsTracking.Proofs.Histories
import SmsTracking.Proofs.Redelivery
import SmsTracking.Proofs.Wire.Kinds

/-!
Events about one message that come in whatever order and however often, among events about other
messages. What is stored of the message is the closed form of the deeds of those events that were
taken, each of them once (`Ledger`), and a delivery either leaves this as it is or takes one more
event. Main statement: where no event of the message changes anything any more, the message has been
sent (`deliveries_converge`).
-/

namespace SmsTracking

open Listener

/-- Everything that is told about one outgoing message, each event under a key of its own. -/
structure Dossier (S : List Envelope) (id : Uuid) : Prop where
  about : ∀ e ∈ S, ∃ p, e.payload? = some p ∧ p.messageId = id
  distinct : (S.map fun e => (e.id, e.type)).Nodup
  creation : ∃ e ∈ S, e.type = EventKind.apiSent.name
  attempt : ∃ e ∈ S, e.type = EventKind.phoneSending.name
  confirmation : ∃ e ∈ S, e.type = EventKind.phoneSent.name
  outgoing : ∀ e ∈ S, e.type ≠ EventKind.phoneReceived.name

/-- The event is not about the message and has a key that none of the others has. -/
structure Envelope.Apart (S : List Envelope) (id : Uuid) (e : Envelope) : Prop where
  other : ∀ p, e.payload? = some p → p.messageId ≠ id
  unused : ∀ f ∈ S, (f.id, f.type) ≠ (e.id, e.type)

/-- What has become of the message in the end. -/
structure Converged (S : List Envelope) (id : Uuid) (w : World) (m : Message) : Prop where
  found : w.messages.find? id = some m
  sent : m.status = .sent
  created : ∃ e ∈ S, ∃ sms time, e.payload? = some (.apiSent sms time) ∧
    w.log.has e.key = true ∧ m.owner = sms.owner ∧ m.contact = sms.contact ∧
    m.content = sms.content ∧ m.direction = .mobileTerminated ∧ m.requestReceivedAt = time ∧
    m.orderTimestamp = time
  confirmed : ∃ e ∈ S, ∃ sms time, e.payload? = some (.phoneSent sms time) ∧
    w.log.has e.key = true ∧ m.sentAt = some time
  attempts_pos : 1 ≤ m.sendAttemptCount.toNat
  attempts_le : m.sendAttemptCount.toNat ≤
    S.countP fun e => e.type = EventKind.phoneSending.name

def Deed.isAttempt : Deed → Bool
  | create _ _ => false
  | move _ step => step.isAttempt

theorem Payload.isAttempt_deed (p : Payload) (time : Timestamp) :
    (p.deed time).isAttempt = decide (p.kind = .phoneSending) := by
  cases p <;> rfl

/-- The deed that an event asks for. -/
def Envelope.deed? (e : Envelope) : Option Deed := e.payload?.map fun p => p.deed e.time

theorem Envelope.type_of_payload? {e : Envelope} {p : Payload} (carried : e.payload? = some p) :
    e.type = p.kind.name ∧ e.payloadAs p.kind = .ok p := by
  obtain ⟨k, kind, read⟩ := Option.bind_eq_some_iff.mp carried
  cases decoded : e.payloadAs k with
  | error reason =>
      rw [decoded] at read
      cases read
  | ok q =>
      rw [decoded] at read
      cases read
      have same := kind_of_payloadAs decoded
      exact ⟨by rw [same, EventKind.name_of_ofName? kind], by rw [same, decoded]⟩

namespace Dossier

variable {S : List Envelope} {id : Uuid} {e f : Envelope}

theorem eq_of_key (dossier : Dossier S id) (he : e ∈ S) (hf : f ∈ S) (same : e.key = f.key) :
    e = f := by
  obtain ⟨ids, types⟩ := Envelope.key_eq_iff.mp same
  exact List.inj_on_of_nodup_map dossier.distinct he hf (by simp [ids, types])

theorem payload (dossier : Dossier S id) (mem : e ∈ S) {k : EventKind} (type : e.type = k.name) :
    ∃ p, e.payload? = some p ∧ p.messageId = id ∧ p.kind = k := by
  obtain ⟨p, carried, named⟩ := dossier.about e mem
  refine ⟨p, carried, named, ?_⟩
  rw [← EventKind.name_inj, ← type, (Envelope.type_of_payload? carried).1]

end Dossier

/-- How far the events of a message have come: the events of `taken` were taken one after the
other, and nothing else has changed the message. A claim that was left behind is that of an attempt
for which the counter had no room. -/
structure Ledger (S : List Envelope) (id : Uuid) (taken : List Envelope) (w : World) : Prop where
  subset : taken ⊆ S
  nodup : taken.Nodup
  form : ClosedForm (taken.filterMap Envelope.deed?) (w.messages.find? id)
  recorded : ∀ e ∈ S, w.log.has e.key = true ↔ e ∈ taken
  claimed : ∀ e ∈ S, ∀ claimedAt, w.log.slots.find? e.key = some (.inProgress claimedAt) →
    e.type = EventKind.phoneSending.name ∧
      ∃ m, w.messages.find? id = some m ∧ m.status ≠ .pending

namespace Listener

/-- A try breaks off only where a counter has no room. -/
theorem trial_aborted {s : MessageStore} {now : Timestamp} {k : EventKind} {e : Envelope}
    {text : String} (aborted : trial s now k e = .aborted text) :
    ∃ p id step m, e.payloadAs k = .ok p ∧ p.deed e.time = .move id step ∧
      s.find? id = some m ∧ m.status ∈ step.allowed ∧ ¬ step.HasRoom m := by
  unfold trial at aborted
  split at aborted
  · rename_i p read
    have answered := Deed.answered_effect s now (p.deed e.time)
    rw [aborted] at answered
    generalize deed : p.deed e.time = d at answered
    cases answered with
    | broken found allowed full => exact ⟨p, _, _, _, read, deed, found, allowed, full⟩
  · cases aborted

/-- A delivery that is not about the message leaves it as it is. -/
theorem Ended.find?_of_ne {now : Timestamp} {e : Envelope} {w w' : World}
    {o : Outcome (Except AppError Unit)} (ended : Ended now e w w' o) {id : Uuid}
    (other : ∀ p, e.payload? = some p → p.messageId ≠ id) :
    w'.messages.find? id = w.messages.find? id := by
  cases ended with
  | taken kind _ decoded makes _ messages _ =>
      have carried := Envelope.payload?_of_payloadAs kind decoded
      rw [← Payload.deed_messageId e.time] at makes
      rw [messages, MessageStore.find?_put_of_makes makes, Payload.deed_messageId,
        if_neg (Ne.symm (other _ carried))]
  | _ =>
      rename_i messages _
      rw [messages]

end Listener

/-- A deed that was done has changed the message. -/
theorem Deed.ne_of_makes {d : Deed} {now : Timestamp} {before : Option Message} {m : Message}
    (makes : d.Makes now before m) : before ≠ some m := by
  cases d with
  | create direction d =>
      obtain ⟨rfl, _⟩ := makes
      nofun
  | move id step =>
      obtain ⟨n, rfl, done⟩ := makes
      obtain ⟨_, room, rfl⟩ := Move.apply_eq_done_iff.mp done
      intro same
      have version := Move.toNat_version_result room now
      rw [← Option.some.inj same] at version
      omega

theorem Deed.not_pending_of_makes {d : Deed} {now : Timestamp} {n m : Message}
    (makes : d.Makes now (some n) m) : m.status ≠ .pending := by
  cases d with
  | create direction d => cases makes.1
  | move id step =>
      obtain ⟨_, ⟨rfl⟩, done⟩ := makes
      obtain ⟨_, _, rfl⟩ := Move.apply_eq_done_iff.mp done
      rw [Move.result_status]
      cases step <;> nofun

namespace Ledger

variable {S taken : List Envelope} {id : Uuid} {w w' : World} {e : Envelope} {now : Timestamp}
  {o : Outcome (Except AppError Unit)}

theorem begin (messages : w.messages = ∅) (slots : w.log.slots = ∅) : Ledger S id [] w where
  subset := List.nil_subset _
  nodup := List.nodup_nil
  form := by
    rw [messages]
    exact .none
  recorded e _ := by
    rw [ListenerLog.has, slots]
    simp
  claimed e _ claimedAt slot := by
    rw [slots] at slot
    cases slot

/-- The message stays as it is, and no claim is left behind but one for which there is a reason. -/
theorem of_same (ledger : Ledger S id taken w)
    (message : w'.messages.find? id = w.messages.find? id)
    (has : ∀ e ∈ S, w'.log.has e.key = w.log.has e.key)
    (claimed : ∀ e ∈ S, ∀ claimedAt, w'.log.slots.find? e.key = some (.inProgress claimedAt) →
      w.log.slots.find? e.key = some (.inProgress claimedAt) ∨
      e.type = EventKind.phoneSending.name ∧
        ∃ m, w.messages.find? id = some m ∧ m.status ≠ .pending) : Ledger S id taken w' where
  subset := ledger.subset
  nodup := ledger.nodup
  form := message ▸ ledger.form
  recorded e mem := by rw [has e mem, ledger.recorded e mem]
  claimed e mem claimedAt slot := by
    rw [message]
    exact (claimed e mem claimedAt slot).elim (ledger.claimed e mem claimedAt) fun h => h

theorem outgoing (ledger : Ledger S id taken w) {m : Message}
    (found : w.messages.find? id = some m) (moves : m.status.isTerminal = false) :
    ∃ d tries, taken.filterMap Envelope.deed? =
      .create .mobileTerminated d :: attemptsAt d.id tries ∧ Outgoing d tries none m :=
  (found ▸ ledger.form).outgoing_of_moves moves

/-- A delivery of another event. -/
theorem apart (ledger : Ledger S id taken w) (ended : Ended now e w w' o)
    (apart : e.Apart S id) : Ledger S id taken w' := by
  have slots (f : Envelope) (mem : f ∈ S) :
      w'.log.slots.find? f.key = w.log.slots.find? f.key := by
    refine ended.slot_of_ne fun same => apart.unused f mem ?_
    obtain ⟨ids, types⟩ := Envelope.key_eq_iff.mp same
    rw [ids, types]
  refine ledger.of_same (ended.find?_of_ne apart.other) ?_ ?_
  · intro f mem
    rw [ListenerLog.has, ListenerLog.has, slots f mem]
  · intro f mem claimedAt slot
    exact .inl (slots f mem ▸ slot)

/-- One more event of the message is taken. -/
theorem take (ledger : Ledger S id taken w) (dossier : Dossier S id) (mem : e ∈ S) {p : Payload}
    {m : Message} {h : HandledEvent} (free : w.log.Free e.key w.uptime)
    (carried : e.payload? = some p)
    (makes : (p.deed e.time).Makes now (w.messages.find? p.messageId) m)
    (about : ListenerLog.keyOf h = e.key) (messages : w'.messages = w.messages.put m)
    (log : w'.log = w.log.settle h) : Ledger S id (taken ++ [e]) w' := by
  obtain ⟨_, again, named⟩ := dossier.about e mem
  rw [carried] at again
  cases again
  have new : e ∉ taken := by
    rw [← ledger.recorded e mem, free.has]
    exact Bool.false_ne_true
  have message : w'.messages.find? id = some m := by
    rw [← Payload.deed_messageId e.time] at makes named
    rw [messages, MessageStore.find?_put_of_makes makes, if_pos named.symm]
  rw [named] at makes
  refine ⟨?_, ?_, ?_, ?_, ?_⟩
  · exact List.append_subset.mpr ⟨ledger.subset, by simpa using mem⟩
  · exact List.concat_eq_append ▸ ledger.nodup.concat new
  · rw [message, List.filterMap_append]
    simp only [List.filterMap_cons, List.filterMap_nil, Envelope.deed?, carried, Option.map_some]
    refine ledger.form.append (fun n found => ?_) makes
    rw [MessageStore.id_of_find? found, Payload.deed_messageId, named]
  · intro f memf
    rw [log, ListenerLog.has_settle, about, List.mem_append, List.mem_singleton]
    by_cases same : f.key = e.key
    · obtain rfl := dossier.eq_of_key memf mem same
      simp
    · have other : f ≠ e := fun h => same (h ▸ rfl)
      simp [same, other, ledger.recorded f memf]
  · intro f memf claimedAt slot
    rw [log, ListenerLog.find?_settle, about] at slot
    split at slot
    · cases slot
    · obtain ⟨type, n, found, _⟩ := ledger.claimed f memf claimedAt slot
      rw [found] at makes
      exact ⟨type, m, message, Deed.not_pending_of_makes makes⟩

/-- An event of the message breaks off only as one more attempt than can be counted. -/
theorem overflows (ledger : Ledger S id taken w) (dossier : Dossier S id) (mem : e ∈ S)
    {k : EventKind} {text : String} (kind : EventKind.ofName? e.type = some k)
    (aborted : trial w.messages now k e = .aborted text) :
    e.type = EventKind.phoneSending.name ∧
      ∃ m, w.messages.find? id = some m ∧ m.status ≠ .pending := by
  obtain ⟨p, id', step, m, read, deed, found, allowed, full⟩ := trial_aborted aborted
  have carried := Envelope.payload?_of_payloadAs kind read
  obtain ⟨_, again, named⟩ := dossier.about e mem
  rw [carried] at again
  cases again
  rw [← Payload.deed_messageId e.time, deed] at named
  obtain rfl : id' = id := named
  obtain ⟨d, tries, _, h⟩ := ledger.outgoing found (Move.isTerminal_of_mem_allowed allowed)
  cases step with
  | confirm time => exact absurd (h.hasRoom_confirm time) full
  | attempt time =>
      have tried : tries ≠ [] := by
        rintro rfl
        exact full (h.hasRoom_attempt time)
      refine ⟨?_, m, found, ?_⟩
      · rw [(Envelope.type_of_payload? carried).1]
        cases p <;> first | rfl | cases deed
      · simp [h.status, tried]

theorem own (ledger : Ledger S id taken w) (dossier : Dossier S id) (mem : e ∈ S)
    (ended : Ended now e w w' o) : ∃ taken, Ledger S id taken w' := by
  cases ended with
  | unknown _ messages log | repeated _ messages log | refused _ messages log =>
      exact ⟨taken, ledger.of_same (by rw [messages]) (fun f _ => by rw [log])
        fun f _ claimedAt slot => .inl (by rwa [log] at slot)⟩
  | taken kind free decoded makes about messages log =>
      exact ⟨taken ++ [e], ledger.take dossier mem free
        (Envelope.payload?_of_payloadAs kind decoded) makes about messages log⟩
  | failed kind free _ messages log =>
      refine ⟨taken, ledger.of_same (by rw [messages]) (fun f _ => by rw [log, free.has_clear])
        fun f _ claimedAt slot => .inl ?_⟩
      rw [log, ListenerLog.find?_clear] at slot
      split at slot
      · cases slot
      · exact slot
  | brokenOff kind free aborted messages log =>
      refine ⟨taken, ledger.of_same (by rw [messages]) (fun f _ => by rw [log, free.has_take])
        fun f memf claimedAt slot => ?_⟩
      by_cases same : f.key = e.key
      · obtain rfl := dossier.eq_of_key memf mem same
        exact .inr (ledger.overflows dossier memf kind aborted)
      · rw [log, ListenerLog.find?_take, if_neg same] at slot
        exact .inl slot

/-- A delivery of an event of the message, or of one that is apart from it, goes down in the
ledger. -/
theorem deliver {a : Ambient} {retries : Nat} (ledger : Ledger S id taken w)
    (dossier : Dossier S id) {d : Delivery} (amid : d.event ∈ S ∨ d.event.Apart S id) :
    ∃ taken, Ledger S id taken (deliver a retries w d).2 := by
  have later : Ledger S id taken { w with uptime := w.uptime.after d.elapsed } :=
    ledger.of_same rfl (fun _ _ => rfl) fun _ _ _ slot => .inl slot
  rcases amid with mem | apart
  · exact later.own dossier mem (ended_deliver a retries w d)
  · exact ⟨taken, later.apart (ended_deliver a retries w d) apart⟩

theorem deliverAll (a : Ambient) (retries : Nat) (ledger : Ledger S id taken w)
    (dossier : Dossier S id) {ds : List Delivery}
    (amid : ∀ d ∈ ds, d.event ∈ S ∨ d.event.Apart S id) :
    ∃ taken, Ledger S id taken (deliverAll a retries w ds) :=
  deliverAll_keeps a retries (I := fun w => ∃ taken, Ledger S id taken w)
    (fun _ d mem ⟨_, ledger⟩ => ledger.deliver dossier (amid d mem)) ⟨taken, ledger⟩

/-- An event that was not taken can be claimed, unless as an attempt on a message that was tried. -/
theorem vacant (ledger : Ledger S id taken w) (mem : e ∈ S) (new : e ∉ taken)
    (unclaimed : e.type = EventKind.phoneSending.name →
      ∀ m, w.messages.find? id = some m → m.status = .pending) :
    w.log.slots.find? e.key = none := by
  rw [← ledger.recorded e mem, ListenerLog.has] at new
  cases slot : w.log.slots.find? e.key with
  | none => rfl
  | some s =>
      cases s with
      | handled h => simp [slot] at new
      | inProgress claimedAt =>
          obtain ⟨type, m, found, tried⟩ := ledger.claimed e mem claimedAt slot
          exact absurd (unclaimed type m found) tried

theorem deed_mem {p : Payload} (mem : e ∈ taken) (carried : e.payload? = some p) :
    p.deed e.time ∈ taken.filterMap Envelope.deed? :=
  List.mem_filterMap.mpr ⟨e, mem, by rw [Envelope.deed?, carried, Option.map_some]⟩

theorem of_deed_mem {d : Deed} (mem : d ∈ taken.filterMap Envelope.deed?) :
    ∃ e ∈ taken, ∃ p, e.payload? = some p ∧ p.deed e.time = d := by
  obtain ⟨e, mem, deed⟩ := List.mem_filterMap.mp mem
  obtain ⟨p, carried, deed⟩ := Option.map_eq_some_iff.mp deed
  exact ⟨e, mem, p, carried, deed⟩

end Ledger

/-- No event of the message changes the messages any more. -/
def Settled (a : Ambient) (retries : Nat) (S : List Envelope) (w : World) : Prop :=
  ∀ e ∈ S, ∃ elapsed, (deliver a retries w ⟨elapsed, e⟩).2.messages = w.messages

namespace Ledger

variable {a : Ambient} {retries : Nat} {S taken : List Envelope} {id : Uuid} {w : World}

/-- Where no event changes anything any more, a deed that has not been done cannot be done. -/
theorem not_makes_of_settled (ledger : Ledger S id taken w) (settled : Settled a retries S w)
    {e : Envelope} (mem : e ∈ S) {p : Payload} (carried : e.payload? = some p)
    (undone : p.deed e.time ∉ taken.filterMap Envelope.deed?)
    (unclaimed : e.type = EventKind.phoneSending.name →
      ∀ m, w.messages.find? id = some m → m.status = .pending) (m : Message) :
    ¬ (p.deed e.time).Makes (a.clock w.readings) (w.messages.find? p.messageId) m := by
  intro makes
  have vacant := ledger.vacant mem (fun before => undone (deed_mem before carried)) unclaimed
  obtain ⟨elapsed, settled⟩ := settled e mem
  obtain ⟨type, read⟩ := Envelope.type_of_payload? carried
  obtain ⟨_, changed⟩ := deliver_of_makes a retries (d := ⟨elapsed, e⟩) ⟨type, read⟩ vacant makes
  rw [settled] at changed
  rw [← Payload.deed_messageId e.time] at makes
  refine Deed.ne_of_makes makes ?_
  conv_lhs => rw [changed]
  rw [MessageStore.find?_put_of_makes makes, if_pos rfl]

theorem created_of_settled (ledger : Ledger S id taken w) (dossier : Dossier S id)
    (settled : Settled a retries S w) : ∃ m, w.messages.find? id = some m := by
  cases found : w.messages.find? id with
  | some m => exact ⟨m, rfl⟩
  | none =>
      obtain ⟨e, mem, type⟩ := dossier.creation
      obtain ⟨p, carried, named, kind⟩ := dossier.payload mem type
      have none : taken.filterMap Envelope.deed? = [] := by
        have form := ledger.form
        rw [found] at form
        generalize taken.filterMap Envelope.deed? = deeds at form
        cases form
        rfl
      have not := ledger.not_makes_of_settled settled mem carried (by simp [none])
        (by simp [found])
      cases p with
      | apiSent sms time => exact absurd ⟨named ▸ found, rfl⟩ (not _)
      | _ => cases kind

theorem tried_of_settled (ledger : Ledger S id taken w) (dossier : Dossier S id)
    (settled : Settled a retries S w) {m : Message} (found : w.messages.find? id = some m) :
    m.status ≠ .pending := by
  intro waits
  obtain ⟨d, tries, deeds, h⟩ := ledger.outgoing found (by rw [waits]; rfl)
  obtain rfl := h.eq_nil_of_pending waits
  obtain ⟨e, mem, type⟩ := dossier.attempt
  obtain ⟨p, carried, named, kind⟩ := dossier.payload mem type
  cases p with
  | phoneSending sms =>
      have allowed : m.status ∈ (Move.attempt e.time).allowed := by
        rw [waits]
        exact List.mem_cons_self
      refine ledger.not_makes_of_settled settled mem carried ?_ ?_ _
        ⟨m, named ▸ found, Move.apply_of_hasRoom allowed (h.hasRoom_attempt e.time) _⟩
      · simp [deeds, attemptsAt, Payload.deed]
      · simp [found, waits]
  | _ => cases kind

theorem terminal_of_settled (ledger : Ledger S id taken w) (dossier : Dossier S id)
    (settled : Settled a retries S w) {m : Message} (found : w.messages.find? id = some m) :
    m.status.isTerminal = true := by
  by_contra moves
  replace moves := Bool.eq_false_iff.mpr moves
  have tried := ledger.tried_of_settled dossier settled found
  obtain ⟨d, tries, deeds, h⟩ := ledger.outgoing found moves
  obtain ⟨e, mem, type⟩ := dossier.confirmation
  obtain ⟨p, carried, named, kind⟩ := dossier.payload mem type
  cases p with
  | phoneSent sms time =>
      have allowed : m.status ∈ (Move.confirm time).allowed := by
        generalize m.status = status at moves tried
        cases status <;> first | exact List.mem_cons_self | contradiction
      refine ledger.not_makes_of_settled settled mem carried ?_ ?_ _
        ⟨m, named ▸ found, Move.apply_of_hasRoom allowed (h.hasRoom_confirm time) _⟩
      · simp [deeds, attemptsAt, Payload.deed]
      · intro other
        rw [type, EventKind.name_inj] at other
        cases other
  | _ => cases kind

/-- No more attempts were made than there are events for them. -/
theorem countP_attempts_le (ledger : Ledger S id taken w) (dossier : Dossier S id) :
    (taken.filterMap Envelope.deed?).countP Deed.isAttempt ≤
      S.countP fun e => e.type = EventKind.phoneSending.name := by
  rw [List.countP_filterMap]
  calc taken.countP (fun e => (e.deed?.map Deed.isAttempt).getD false)
      ≤ taken.countP fun e => e.type = EventKind.phoneSending.name := by
        refine List.countP_mono_left fun e mem attempt => ?_
        obtain ⟨p, carried, _⟩ := dossier.about e (ledger.subset mem)
        rw [Envelope.deed?, carried, Option.map_some, Option.map_some, Option.getD_some,
          Payload.isAttempt_deed] at attempt
        rw [(Envelope.type_of_payload? carried).1, of_decide_eq_true attempt]
        exact decide_eq_true rfl
    _ ≤ S.countP fun e => e.type = EventKind.phoneSending.name :=
        (List.subperm_of_subset ledger.nodup ledger.subset).countP_le _

/-- What has become of a message that is at its end. -/
theorem converged (ledger : Ledger S id taken w) (dossier : Dossier S id) {m : Message}
    (found : w.messages.find? id = some m) (final : m.status.isTerminal = true) :
    Converged S id w m := by
  have form := ledger.form
  have bound := ledger.countP_attempts_le dossier
  rw [found] at form
  generalize done : taken.filterMap Envelope.deed? = deeds at form bound
  cases form with
  | outgoing h =>
      rw [h.status] at final
      simp only [Option.isSome_none, Bool.false_eq_true, if_false] at final
      split at final <;> cases final
  | @incoming d m h =>
      have first : Deed.create .mobileOriginated d ∈ taken.filterMap Envelope.deed? := by
        simp [done]
      obtain ⟨e, mem, p, carried, deed⟩ := of_deed_mem first
      have received : p.kind = .phoneReceived := by
        cases p <;> first | rfl | cases deed
      refine absurd ?_ (dossier.outgoing e (ledger.subset mem))
      rw [(Envelope.type_of_payload? carried).1, received]
  | @confirmed d tries time m tried h =>
      have first : Deed.create .mobileTerminated d ∈ taken.filterMap Envelope.deed? := by
        simp [done]
      have last : Deed.move d.id (.confirm time) ∈ taken.filterMap Envelope.deed? := by
        simp [done]
      have count : m.sendAttemptCount.toNat = tries.length := h.sendAttemptCount
      refine ⟨found, h.status, ?_, ?_, ?_, ?_⟩
      · obtain ⟨e, mem, p, carried, deed⟩ := of_deed_mem first
        cases p with
        | apiSent sms time =>
            cases deed
            exact ⟨e, ledger.subset mem, sms, time, carried,
              (ledger.recorded e (ledger.subset mem)).mpr mem, h.owner, h.contact, h.content,
              h.direction, h.requestReceivedAt, h.orderTimestamp⟩
        | _ => cases deed
      · obtain ⟨e, mem, p, carried, deed⟩ := of_deed_mem last
        cases p with
        | phoneSent sms sent =>
            obtain ⟨_, rfl⟩ : sms.id = d.id ∧ sent = time := by simpa [Payload.deed] using deed
            exact ⟨e, ledger.subset mem, sms, sent, carried,
              (ledger.recorded e (ledger.subset mem)).mpr mem, h.sentAt⟩
        | _ => simp [Payload.deed] at deed
      · rw [count]
        exact List.length_pos_iff.mpr tried
      · rw [count]
        refine Nat.le_trans (Nat.le_of_eq ?_) bound
        simp [attemptsAt, Deed.isAttempt, Move.isAttempt, List.countP_map, Function.comp_def]

end Ledger

theorem deliveries_converge (a : Ambient) (retries : Nat) (S : List Envelope) (id : Uuid)
    (dossier : Dossier S id) (w : World) (messages : w.messages = ∅) (slots : w.log.slots = ∅)
    (ds : List Delivery) (amid : ∀ d ∈ ds, d.event ∈ S ∨ d.event.Apart S id)
    (settled : Settled a retries S (deliverAll a retries w ds)) :
    ∃ m, Converged S id (deliverAll a retries w ds) m := by
  obtain ⟨taken, ledger⟩ :=
    (Ledger.begin messages slots).deliverAll a retries dossier amid
  obtain ⟨m, found⟩ := ledger.created_of_settled dossier settled
  have final := ledger.terminal_of_settled dossier settled found
  exact ⟨m, ledger.converged dossier found final⟩

/-- Events that are recorded change nothing any more. -/
theorem Settled.of_has {a : Ambient} {retries : Nat} {S : List Envelope} {id : Uuid} {w : World}
    (dossier : Dossier S id) (has : ∀ e ∈ S, w.log.has e.key = true) :
    Settled a retries S w := by
  intro e mem
  obtain ⟨p, carried, _⟩ := dossier.about e mem
  obtain ⟨type, _⟩ := Envelope.type_of_payload? carried
  have kind : EventKind.ofName? e.type = some p.kind := type ▸ p.kind.ofName?_name
  exact ⟨⟨0⟩, ((ended_deliver a retries w ⟨⟨0⟩, e⟩).of_has kind (has e mem)).2⟩

/-- The events of a message come in backwards, among those of another message, until all of them
are taken. -/
theorem deliveries_converge_backwards :
    let a : Ambient := ⟨fun _ => .epoch, fun n => ⟨n⟩⟩
    let sms : Sms := ⟨⟨1⟩, "+1000", "+2000", "hi"⟩
    let created := Envelope.carrying "1" .epoch (.apiSent sms .epoch)
    let tried := Envelope.carrying "2" .epoch (.phoneSending sms)
    let confirmed := Envelope.carrying "3" .epoch (.phoneSent sms .epoch)
    let other := Envelope.carrying "4" .epoch (.apiSent { sms with id := ⟨2⟩ } .epoch)
    let S := [created, tried, confirmed]
    let ds : List Delivery := [confirmed, tried, other, created, confirmed, tried, confirmed].map
      fun event => { event }
    Dossier S ⟨1⟩ ∧ (∀ d ∈ ds, d.event ∈ S ∨ d.event.Apart S ⟨1⟩) ∧
      Settled a 3 S (deliverAll a 3 {} ds) ∧ ∃ m, Converged S ⟨1⟩ (deliverAll a 3 {} ds) m := by
  intro a sms created tried confirmed other S ds
  have carried (id : String) (p : Payload) :
      (Envelope.carrying id .epoch p).payload? = some p.written :=
    (Envelope.carrying_carries id .epoch p).payload?
  have dossier : Dossier S ⟨1⟩ :=
    { about := by simp [S, created, tried, confirmed, carried, Payload.written, Payload.messageId, Payload.sms,
        sms]
      distinct := by decide
      creation := ⟨created, by simp [S], rfl⟩
      attempt := ⟨tried, by simp [S], rfl⟩
      confirmation := ⟨confirmed, by simp [S], rfl⟩
      outgoing := by
        simp only [S, List.forall_mem_cons]
        decide }
  have apart : other.Apart S ⟨1⟩ :=
    { other := by simp [other, carried, Payload.written, Payload.messageId, Payload.sms, sms]
      unused := by
        simp only [S, List.forall_mem_cons]
        decide }
  have amid : ∀ d ∈ ds, d.event ∈ S ∨ d.event.Apart S ⟨1⟩ := by
    simp [ds, S]
    exact .inr apart
  have has : ∀ e ∈ S, (deliverAll a 3 {} ds).log.has e.key = true := by
    simp only [S, List.forall_mem_cons]
    decide +kernel
  have settled : Settled a 3 S (deliverAll a 3 {} ds) := .of_has dossier has
  exact ⟨dossier, amid, settled,
    deliveries_converge a 3 S ⟨1⟩ dossier {} rfl rfl ds amid settled⟩

end SmsTracking
