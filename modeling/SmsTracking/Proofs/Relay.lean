import SmsTracking.Proofs.Atomicity
import SmsTracking.Proofs.Bursts
import SmsTracking.Proofs.Redelivery
import SmsTracking.Proofs.Replay

/-!
An engine with the listener's handlers against the dispatch of the same events in place. What the
two write into the journal is not the same, but this is all: no program can tell what was written.
Main statement: the engine leaves of bursts of events what the dispatch of those events leaves that
the bus has held (`bursts_relayed`).
-/

namespace SmsTracking

/-- The world but for what was written into the journal. -/
def World.silent (w : World) : World := { w with lines := [] }

theorem World.messages_of_silent {w v : World} (same : w.silent = v.silent) :
    w.messages = v.messages :=
  (congrArg World.messages same :)

theorem World.log_of_silent {w v : World} (same : w.silent = v.silent) : w.log = v.log :=
  (congrArg World.log same :)

theorem World.answer_silent (a : Ambient) (w : World) (r : Request) :
    (w.silent.answer a r).1 = (w.answer a r).1 ∧
      (w.silent.answer a r).2.silent = (w.answer a r).2.silent := by
  cases r with
  | publish e =>
      simp only [answer, publish, silent]
      cases w.bus.send e <;> exact ⟨rfl, rfl⟩
  | _ => exact ⟨rfl, rfl⟩

namespace Program

theorem run_then_pure {α β : Type} (a : Ambient) (p : Program α) (x : β) (w : World) :
    ((do
      let _ ← p
      pure x).run a w).2 = (p.run a w).2 ∧
    (∀ text, ((do
      let _ ← p
      pure x).run a w).1 = .aborted text ↔ (p.run a w).1 = .aborted text) ∧
    ∀ y, (p.run a w).1 = .done y → ((do
      let _ ← p
      pure x).run a w).1 = .done x := by
  rw [run_bind]
  rcases p.run a w with ⟨(y | text), w'⟩ <;> simp

/-- The programs come to the same in worlds that are the same but for the journal. -/
def SameWork {α : Type} (p q : Program α) : Prop :=
  ∀ a w v, w.silent = v.silent →
    (p.run a w).1 = (q.run a v).1 ∧ (p.run a w).2.silent = (q.run a v).2.silent

namespace SameWork

variable {α β : Type}

theorem refl (p : Program α) : p.SameWork p := by
  induction p with
  | done x => exact fun _ _ _ same => ⟨rfl, same⟩
  | abort text => exact fun _ _ _ same => ⟨rfl, same⟩
  | ask r next ih =>
      intro a w v same
      obtain ⟨answer, left⟩ := w.answer_silent a r
      obtain ⟨answer', left'⟩ := v.answer_silent a r
      rw [same] at answer left
      simp only [run, ← answer, ← answer']
      exact ih _ a _ _ (left.symm.trans left')

theorem symm {p q : Program α} (same : p.SameWork q) : q.SameWork p := by
  intro a w v alike
  obtain ⟨outcome, left⟩ := same a v w alike.symm
  exact ⟨outcome.symm, left.symm⟩

theorem trans {p q r : Program α} (first : p.SameWork q) (second : q.SameWork r) :
    p.SameWork r := by
  intro a w v alike
  obtain ⟨outcome, left⟩ := first a w v alike
  obtain ⟨outcome', left'⟩ := second a v v rfl
  exact ⟨outcome.trans outcome', left.trans left'⟩

theorem bind {p q : Program α} {f g : α → Program β} (same : p.SameWork q)
    (next : ∀ x, (f x).SameWork (g x)) : (p >>= f).SameWork (q >>= g) := by
  intro a w v alike
  obtain ⟨outcome, left⟩ := same a w v alike
  rw [run_bind, run_bind]
  generalize p.run a w = r at outcome left
  generalize q.run a v = s at outcome left
  obtain ⟨o, w'⟩ := r
  obtain ⟨o', v'⟩ := s
  obtain rfl : o = o' := outcome
  cases o with
  | done x => exact next x a w' v' left
  | aborted text => exact ⟨rfl, left⟩

theorem write (line : LogLine) :
    (MonadJournal.write line : Program Unit).SameWork (pure ()) := by
  intro a w v alike
  exact ⟨rfl, alike⟩

/-- A program that starts by writing a line. -/
theorem write_bind (line : LogLine) {p q : Program α} (same : p.SameWork q) :
    (MonadJournal.write line >>= fun _ => p).SameWork q :=
  (write line).bind fun _ => same

end SameWork

end Program

theorem Message.created_version (direction : Direction) (d : NewMessage) (now : Timestamp) :
    (created direction d now).version.toNat = 0 := by
  cases direction <;> rfl

theorem Message.created_sendAttemptCount (direction : Direction) (d : NewMessage)
    (now : Timestamp) : (created direction d now).sendAttemptCount.toNat = 0 := by
  cases direction <;> rfl

namespace MessageStore

/-- No counter comes to its end if a message is written so many times more. -/
def RoomFor (n : Nat) (s : MessageStore) : Prop :=
  ∀ id m, s.find? id = some m →
    m.version.toNat + n < UInt64.size ∧ m.sendAttemptCount.toNat + n < UInt32.size

variable {n : Nat} {s s' : MessageStore}

theorem RoomFor.hasRoom (room : s.RoomFor (n + 1)) : s.HasRoom := by
  intro id m found
  have counted := room id m found
  omega

theorem RoomFor.moved (room : s.RoomFor (n + 1)) (few : n < UInt32.size) (moved : s.Moved s') :
    s'.RoomFor n := by
  cases moved with
  | same =>
      intro id m found
      have counted := room id m found
      omega
  | @put d now m makes =>
      intro id m' found
      rw [find?_put_of_makes makes] at found
      split at found
      · cases found
        cases d with
        | create direction d =>
            obtain ⟨_, rfl⟩ := makes
            have narrow : UInt32.size < UInt64.size := by decide
            rw [Message.created_version, Message.created_sendAttemptCount]
            exact ⟨by omega, by omega⟩
        | move id step =>
            obtain ⟨m₀, found, done⟩ := makes
            obtain ⟨_, enough, rfl⟩ := Move.apply_eq_done_iff.mp done
            have counted := room _ m₀ found
            have version := Move.toNat_version_result enough now
            have attempts := Move.toNat_sendAttemptCount_result enough now
            split at attempts <;> omega
      · have counted := room id m' found
        omega

end MessageStore

namespace Listener

open Program (SameWork)

variable (retries : Nat)

/-- Deals with an event, whatever comes of it. -/
def attend (e : Envelope) : Program Unit := do
  let _ ← handleEvent retries e
  pure ()

theorem sameWork_react (limit : Nat) (picks : List Nat) (e : Envelope) :
    ((Registry.ofList (handlers retries)).react (.event e) limit picks).SameWork
      (attend retries e) := by
  unfold attend handleEvent
  cases kind : EventKind.ofName? e.type with
  | none =>
      simp only [Registry.react, matching_handlers_of_unknown retries kind]
      rw [completions]
      exact .refl _
  | some k =>
      simp only [Registry.react, ← EventKind.name_of_ofName? kind, matching_handlers,
        completions_singleton, List.forM_eq_forM, List.forM_cons, List.forM_nil, Registry.serve,
        handler, bind_assoc]
      refine (SameWork.refl _).bind fun answer => ?_
      cases answer with
      | ok _ => exact .refl _
      | error reason => exact .write_bind _ (.refl _)

theorem sameWork_dispatch (limit : Nat) (picks : List Nat) (e : Envelope) :
    (do
      let _ ← (Registry.ofList (handlers retries)).dispatch limit picks e
      pure ()).SameWork (attend retries e) := by
  unfold attend handleEvent
  cases kind : EventKind.ofName? e.type with
  | none =>
      rw [Registry.dispatch_of_none (matching_handlers_of_unknown retries kind)]
      exact .refl _
  | some k =>
      simp only [dispatch_handlers (EventKind.name_of_ofName? kind).symm, bind_assoc]
      refine (SameWork.refl _).bind fun answer => ?_
      cases answer with
      | ok _ => exact .refl _
      | error reason => exact .write_bind _ (.refl _)

theorem run_attend (a : Ambient) {n : Nat} (e : Envelope) {w : World}
    (room : w.messages.RoomFor (n + 1)) :
    ∃ w', (attend retries e).run a w = (.done (), w') ∧ w.messages.Moved w'.messages := by
  have ended := ended_handleEvent a retries e w
  rw [attend, Program.run_bind]
  generalize (handleEvent retries e).run a w = r at ended
  obtain ⟨o, w'⟩ := r
  cases o with
  | done answer => exact ⟨w', rfl, ended.moved⟩
  | aborted text =>
      cases ended with
      | brokenOff _ _ aborted => exact absurd aborted (trial_ne_aborted room.hasRoom _ _ _ _)

/-- As long as no counter can come to its end, every event is dealt with. -/
theorem run_attend_all (a : Ambient) {es : List Envelope} {w : World}
    (room : w.messages.RoomFor es.length) (few : es.length < UInt32.size) :
    ∃ w', (es.forM (attend retries)).run a w = (.done (), w') := by
  induction es generalizing w with
  | nil => exact ⟨w, rfl⟩
  | cons e es ih =>
      rw [List.length_cons] at room few
      obtain ⟨w', ran, moved⟩ := run_attend retries a e room
      have fewer : es.length < UInt32.size := by omega
      obtain ⟨last, rest⟩ := ih (room.moved fewer moved) fewer
      refine ⟨last, ?_⟩
      rw [List.forM_eq_forM, List.forM_cons, Program.run_bind, ran]
      exact rest

end Listener

/-- Dispatches the events in place, one after the other, whatever the answers are. -/
def Registry.dispatchAll {m : Type → Type} [Monad m] [MonadJournal m] (r : Registry m)
    (limit : Nat) (picks : List Nat) (es : List Envelope) : m Unit :=
  es.forM fun e => do
    let _ ← r.dispatch limit picks e
    pure ()

def StreamItem.event? : StreamItem → Option Envelope
  | .event e => some e
  | .lagged _ => none

theorem Bus.filterMap_yield (capacity : Nat) (es : List Envelope) :
    (yield capacity es).filterMap StreamItem.event? = kept capacity es := by
  have events (es : List Envelope) :
      (es.map StreamItem.event).filterMap StreamItem.event? = es := by
    rw [List.filterMap_map]
    exact List.filterMap_some
  unfold yield
  rw [List.filterMap_append, events]
  split <;> simp [StreamItem.event?]

namespace Engine

open Program (SameWork)

theorem filterMap_given (capacity : Nat) (bursts : List (List Envelope)) :
    (given capacity bursts).filterMap StreamItem.event? =
      bursts.flatMap (Bus.kept capacity) := by
  simp only [given, List.filterMap_flatMap, Bus.filterMap_yield]

theorem sublist_kept (capacity : Nat) (bursts : List (List Envelope)) :
    (bursts.flatMap (Bus.kept capacity)).Sublist bursts.flatten := by
  induction bursts with
  | nil => exact .slnil
  | cons es bursts ih => exact (List.drop_sublist _ es).append ih

/-- What the engine deals with is what is dispatched, but for the journal. -/
theorem sameWork_deal (retries : Nat) (g : Engine Program)
    (handlers : g.registry = .ofList (Listener.handlers retries)) (items : List StreamItem) :
    (g.deal items).SameWork
      ((items.filterMap StreamItem.event?).forM (Listener.attend retries)) := by
  rw [deal, handlers]
  induction items with
  | nil => exact .refl _
  | cons item items ih =>
      simp only [List.forM_eq_forM, List.forM_cons] at ih ⊢
      cases item with
      | lagged missed => exact .write_bind _ ih
      | event e => exact (Listener.sameWork_react retries g.concurrency [] e).bind fun _ => ih

theorem sameWork_dispatchAll (retries limit : Nat) (picks : List Nat) (es : List Envelope) :
    ((Registry.ofList (Listener.handlers retries)).dispatchAll limit picks es).SameWork
      (es.forM (Listener.attend retries)) := by
  rw [Registry.dispatchAll]
  induction es with
  | nil => exact .refl _
  | cons e es ih =>
      simp only [List.forM_eq_forM, List.forM_cons] at ih ⊢
      exact (Listener.sameWork_dispatch retries limit picks e).bind fun _ => ih

end Engine

/-- What an engine makes of bursts on a bus that was given room for `n` events, while `inPlace` is
what the dispatch in place makes of those events that the bus has kept. -/
structure Relayed (n : Nat) (b : Bus) (g : Engine Program) (bursts : List (List Envelope))
    (a : Ambient) (w : World) (inPlace : Outcome Unit × World) : Prop where
  capacity : b.capacity.isPowerOfTwo ∧ n ≤ b.capacity ∧
    ∀ m : Nat, m.isPowerOfTwo → n ≤ m → b.capacity ≤ m
  /-- The engine deals with one item after the other, whatever comes of those before. -/
  work : ∃ items bus, items.filterMap StreamItem.event? = bursts.flatMap (Bus.kept b.capacity) ∧
    g.burstAll (b.subscribe g.name) bursts = (do
      g.deal items
      pure bus)
  order : (bursts.flatMap (Bus.kept b.capacity)).Sublist bursts.flatten
  messages : ((g.burstAll (b.subscribe g.name) bursts).run a w).2.messages = inPlace.2.messages
  log : ((g.burstAll (b.subscribe g.name) bursts).run a w).2.log = inPlace.2.log
  ends : ∀ text, ((g.burstAll (b.subscribe g.name) bursts).run a w).1 = .aborted text ↔
    inPlace.1 = .aborted text
  unbroken : w.messages.RoomFor (bursts.flatMap (Bus.kept b.capacity)).length →
    (bursts.flatMap (Bus.kept b.capacity)).length < UInt32.size →
      ∃ bus, ((g.burstAll (b.subscribe g.name) bursts).run a w).1 = .done bus

theorem bursts_relayed (retries n : Nat) {b : Bus} (given : Bus.ofCapacity n = .ok b)
    (name : String) (concurrency limit : Nat) (picks : List Nat)
    (bursts : List (List Envelope)) (a : Ambient) (w : World) :
    let registry : Registry Program := .ofList (Listener.handlers retries)
    Relayed n b ⟨name, registry, concurrency⟩ bursts a w
      ((registry.dispatchAll limit picks (bursts.flatMap (Bus.kept b.capacity))).run a w) := by
  intro registry
  let g : Engine Program := ⟨name, registry, concurrency⟩
  let items := Engine.given b.capacity bursts
  let dispatched := bursts.flatMap (Bus.kept b.capacity)
  have heard : items.filterMap StreamItem.event? = dispatched :=
    Engine.filterMap_given b.capacity bursts
  obtain ⟨bus, work⟩ : ∃ bus, g.burstAll (b.subscribe name) bursts = (do
      g.deal items
      pure bus) := ⟨_, g.burstAll_eq (b.idleFor_subscribe name) bursts⟩
  have attended := Engine.sameWork_deal retries g rfl items
  rw [heard] at attended
  have placed := Engine.sameWork_dispatchAll retries limit picks dispatched
  obtain ⟨outcome, left⟩ := (attended.trans placed.symm) a w w rfl
  obtain ⟨world, broken, done⟩ := Program.run_then_pure a (g.deal items) bus w
  rw [← work] at world broken done
  exact
    { capacity := Bus.capacity_of_ofCapacity given
      work := ⟨items, bus, heard, work⟩
      order := Engine.sublist_kept b.capacity bursts
      messages := by
        rw [world]
        exact World.messages_of_silent left
      log := by
        rw [world]
        exact World.log_of_silent left
      ends := by
        intro text
        rw [broken, outcome]
      unbroken := by
        intro room few
        obtain ⟨w', attendedAll⟩ := Listener.run_attend_all retries a room few
        refine ⟨bus, done () ?_⟩
        rw [outcome, (placed a w w rfl).1, attendedAll] }

/-- A bus with room for three events holds four of them. Of the first burst the creation of the
message is missed, so that its attempts fail until it comes again. -/
theorem bursts_relayed_missed :
    let a : Ambient := ⟨fun _ => .epoch, fun n => ⟨n⟩⟩
    let sms : Sms := ⟨⟨1⟩, "+1000", "+2000", "hi"⟩
    let created := Envelope.carrying "1" .epoch (.apiSent sms .epoch)
    let tried := Envelope.carrying "2" .epoch (.phoneSending sms)
    let unknown : Envelope := { tried with type := "" }
    let bursts := [[created, tried, tried, tried, tried], [created, tried, unknown]]
    let b : Bus := { capacity := Nat.nextPowerOfTwo 3 }
    let registry : Registry Program := .ofList (Listener.handlers 3)
    Bus.ofCapacity 3 = .ok b ∧ Relayed 3 b ⟨"engine", registry, 0⟩ bursts a {}
      ((registry.dispatchAll 8 [] (bursts.flatMap (Bus.kept b.capacity))).run a {}) := by
  intro a sms created tried unknown bursts b registry
  have given : Bus.ofCapacity 3 = .ok b := rfl
  exact ⟨given, bursts_relayed 3 3 given "engine" 0 8 [] bursts a {}⟩

end SmsTracking
