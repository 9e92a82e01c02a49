import SmsTracking.Proofs.Standing
import SmsTracking.Proofs.Stores

/-!
Deliveries of one event of one type, however many there are and however they are interleaved, have
their effect once. The slot of their key, the standings of the deliveries and the writes that they
have committed go together (`Custody`), and every request that a delivery may make preserves this.
Main statement: no two deliveries hold the claim, at most one write is committed, and exactly one if
the event is recorded or a delivery has succeeded (`deliveries_exactlyOnce`).
-/

namespace SmsTracking

namespace Standing

/-- Was granted the claim and has not given it up. -/
def Active (s : Standing) : Prop := s = working ∨ s = written ∨ s = recorded

theorem active_of_holds {s : Standing} (holds : s.holds = true) : s.Active := by
  simp only [Standing.holds, decide_eq_true_eq] at holds
  exact holds.elim .inl fun h => .inr (.inl h)

/-- Has no part in the key. Only who finds it handled has succeeded. -/
def Aside (slot : Option ListenerSlot) (s : Standing) : Prop :=
  s = waiting ∨ s = refused ∨ s = released ∨ s = answered ∧ ∃ h, slot = some (.handled h)

theorem Aside.not_active {slot : Option ListenerSlot} {s : Standing} (aside : s.Aside slot) :
    ¬ s.Active := by
  rcases aside with rfl | rfl | rfl | ⟨rfl, _⟩ <;> simp [Active]

theorem Aside.mono {slot slot' : Option ListenerSlot} {s : Standing} (aside : s.Aside slot)
    (stays : ∀ h, slot = some (.handled h) → slot' = some (.handled h)) : s.Aside slot' := by
  rcases aside with h | h | h | ⟨h, e, handled⟩
  · exact .inl h
  · exact .inr (.inl h)
  · exact .inr (.inr (.inl h))
  · exact .inr (.inr (.inr ⟨h, e, stays e handled⟩))

/-- The delivery in this place was granted the claim: what is in the slot and which writes are
committed, by how it stands. -/
inductive Holder (start : Instant) (i : Nat) : Standing → Option ListenerSlot → List Nat → Prop
  | working {claimedAt : Instant} (since : start.nanoseconds ≤ claimedAt.nanoseconds) :
      Holder start i working (some (.inProgress claimedAt)) []
  | written {claimedAt : Instant} (since : start.nanoseconds ≤ claimedAt.nanoseconds) :
      Holder start i written (some (.inProgress claimedAt)) [i]
  | recorded (h : HandledEvent) : Holder start i recorded (some (.handled h)) [i]

theorem Holder.active {start : Instant} {i : Nat} {s : Standing} {slot : Option ListenerSlot}
    {commits : List Nat} (holder : Holder start i s slot commits) : s.Active := by
  cases holder <;> simp [Active]

theorem Holder.slot_ne_none {start : Instant} {i : Nat} {s : Standing} {commits : List Nat} :
    ¬ Holder start i s none commits := by
  intro holder
  cases holder

theorem Holder.since {start : Instant} {i : Nat} {s : Standing} {claimedAt : Instant}
    {commits : List Nat} (holder : Holder start i s (some (.inProgress claimedAt)) commits) :
    start.nanoseconds ≤ claimedAt.nanoseconds := by
  cases holder with
  | working since => exact since
  | written since => exact since

end Standing

open Standing

/-- How far the deliveries of one key have come: what is in its slot, how the deliveries stand and
which of them have committed a write. -/
inductive Custody (start : Instant) (mine : Nat → Prop) (slot : Option ListenerSlot)
    (S : Nat → Standing) (commits : List Nat) : Prop
  | vacant (empty : slot = none) (none : commits = [])
      (others : ∀ j, mine j → (S j).Aside slot)
  | held (i : Nat) (own : mine i) (holder : Holder start i (S i) slot commits)
      (others : ∀ j, mine j → j ≠ i → (S j).Aside slot)

namespace Custody

variable {start : Instant} {mine : Nat → Prop} {slot : Option ListenerSlot} {S T : Nat → Standing}
  {commits : List Nat} {j : Nat}

theorem congr (custody : Custody start mine slot S commits) (same : ∀ j, mine j → T j = S j) :
    Custody start mine slot T commits := by
  cases custody with
  | vacant empty none others => exact .vacant empty none fun j own => same j own ▸ others j own
  | held i own holder others =>
      exact .held i own (same i own ▸ holder) fun j own ne => same j own ▸ others j own ne

/-- Who was granted the claim has it for itself. -/
theorem holder (custody : Custody start mine slot S commits) (own : mine j)
    (active : (S j).Active) :
    Holder start j (S j) slot commits ∧ ∀ k, mine k → k ≠ j → (S k).Aside slot := by
  cases custody with
  | vacant _ _ others => exact absurd active (others j own).not_active
  | held i _ holder others =>
      have same : j = i := by
        by_contra ne
        exact (others j own ne).not_active active
      subst same
      exact ⟨holder, others⟩

/-- A delivery that has no part in the key goes on having none. -/
theorem update_aside (custody : Custody start mine slot S commits) (waits : S j = waiting)
    {s : Standing} (aside : s.Aside slot) :
    Custody start mine slot (Function.update S j s) commits := by
  have others : ∀ k, (S k).Aside slot → (Function.update S j s k).Aside slot := by
    intro k h
    by_cases same : k = j
    · subst same
      rwa [Function.update_self]
    · rwa [Function.update_of_ne same]
  cases custody with
  | vacant empty none idle => exact .vacant empty none fun k own => others k (idle k own)
  | held i own holder idle =>
      have ne : i ≠ j := by
        rintro rfl
        have active := holder.active
        simp [waits, Active] at active
      exact .held i own (by rwa [Function.update_of_ne ne]) fun k own ne => others k (idle k own ne)

/-- One delivery takes its next step as the holder of the claim, and no record goes away. -/
theorem update_holder {slot' : Option ListenerSlot} {commits' : List Nat} {s : Standing}
    (own : mine j) (holder : Holder start j s slot' commits')
    (others : ∀ k, mine k → k ≠ j → (S k).Aside slot)
    (stays : ∀ h, slot = some (.handled h) → slot' = some (.handled h)) :
    Custody start mine slot' (Function.update S j s) commits' := by
  refine .held j own (by rwa [Function.update_self]) fun k own ne => ?_
  rw [Function.update_of_ne ne]
  exact (others k own ne).mono stays

/-- A claim is granted only on a vacant slot, since no claim runs out. -/
theorem claim {log : ListenerLog} {key : ListenerKey} {now : Instant}
    (custody : Custody start mine (log.slots.find? key) S commits) (own : mine j)
    (waits : S j = waiting) (started : start.nanoseconds ≤ now.nanoseconds)
    (lasting : ∀ claimedAt : Instant, start.nanoseconds ≤ claimedAt.nanoseconds →
      log.expired claimedAt now = false) :
    Custody start mine ((log.claim key now).2.slots.find? key)
      (Function.update S j (waiting.next ⟨.claim key, .ok (log.claim key now).1⟩)) commits := by
  cases slot : log.slots.find? key with
  | none =>
      rw [slot] at custody
      rw [ListenerLog.claim_of_vacant now slot, ListenerLog.find?_take, if_pos rfl]
      cases custody with
      | vacant _ none others =>
          subst none
          exact update_holder own (.working started) (fun k own _ => others k own) (by simp)
      | held i _ holder _ => exact absurd holder Holder.slot_ne_none
  | some s =>
      rw [slot] at custody
      cases s with
      | handled h =>
          rw [ListenerLog.claim_of_handled now slot, slot]
          exact custody.update_aside waits (.inr (.inr (.inr ⟨rfl, h, rfl⟩)))
      | inProgress claimedAt =>
          have running : log.expired claimedAt now = false := by
            cases custody with
            | vacant empty _ _ => cases empty
            | held i _ holder _ => exact lasting _ holder.since
          rw [ListenerLog.claim_of_running slot running, slot]
          exact custody.update_aside waits (.inr (.inl rfl))

theorem write (custody : Custody start mine slot S commits) (own : mine j)
    (works : S j = working) :
    Custody start mine slot (Function.update S j written) (commits ++ [j]) := by
  obtain ⟨holder, others⟩ := custody.holder own (.inl works)
  rw [works] at holder
  cases holder with
  | working since => exact update_holder own (.written since) others fun _ h => h

/-- A delivery that works tries to write. -/
theorem attempt (custody : Custody start mine slot S commits) (own : mine j)
    (works : S j = working) {x : Exchange}
    (next : working.next x = if x.commits then written else working) :
    Custody start mine slot (Function.update S j (working.next x))
      (if x.commits then commits ++ [j] else commits) := by
  rw [next]
  split
  · exact custody.write own works
  · rw [← works, Function.update_eq_self]
    exact custody

theorem release {log : ListenerLog} {key : ListenerKey}
    (custody : Custody start mine (log.slots.find? key) S commits) (own : mine j)
    (works : S j = working) :
    Custody start mine ((log.release key).slots.find? key) (Function.update S j released)
      commits := by
  obtain ⟨holder, others⟩ := custody.holder own (.inl works)
  rw [works] at holder
  generalize slot : log.slots.find? key = found at holder others
  cases holder with
  | working since =>
      have released : (log.release key).slots.find? key = none := by
        simp [ListenerLog.release, slot]
      rw [released]
      refine .vacant rfl rfl fun k own => ?_
      by_cases same : k = j
      · subst same
        rw [Function.update_self]
        exact .inr (.inr (.inl rfl))
      · rw [Function.update_of_ne same]
        exact (others k own same).mono (by simp)

theorem record {log : ListenerLog} {h : HandledEvent}
    (custody : Custody start mine (log.slots.find? (ListenerLog.keyOf h)) S commits) (own : mine j)
    (wrote : S j = written) :
    Custody start mine ((log.record h).2.slots.find? (ListenerLog.keyOf h))
      (Function.update S j recorded) commits := by
  obtain ⟨holder, others⟩ := custody.holder own (.inr (.inl wrote))
  rw [wrote] at holder
  generalize slot : log.slots.find? (ListenerLog.keyOf h) = found at holder others
  cases holder with
  | written since =>
      have recorded : (log.record h).2.slots.find? (ListenerLog.keyOf h) = some (.handled h) := by
        simp [ListenerLog.record, slot]
      rw [recorded]
      exact update_holder own (.recorded h) others (by simp)

end Custody

/-- The delivery in this place is one of the event with this identifier and type. -/
def delivers (events : List Envelope) (id type : String) (place : Nat) : Bool :=
  events[place]?.any fun e => e.id = id ∧ e.type = type

/-- The places of these deliveries, as they have committed writes. -/
def committers (events : List Envelope) (id type : String) (es : List (Nat × Exchange)) :
    List Nat :=
  es.filterMap fun e => if delivers events id type e.1 ∧ e.2.commits then some e.1 else none

/-- The key of the delivery in a place. -/
def own (events : List Envelope) (place : Nat) : Option ListenerKey :=
  events[place]?.map Envelope.key

def conducts (events : List Envelope) (place : Nat) :
    Conduct Standing (Except AppError Unit) :=
  conduct (own events place)

theorem delivers_iff (events : List Envelope) (id type : String) (place : Nat) :
    delivers events id type place = true ↔
      own events place = some ⟨id, "MessageListener." ++ type⟩ := by
  unfold delivers own
  cases events[place]? with
  | none => simp
  | some e => simp [Envelope.key, String.append_right_inj]

theorem committers_append (events : List Envelope) (id type : String)
    (es : List (Nat × Exchange)) (place : Nat) (x : Exchange) :
    committers events id type (es ++ [(place, x)]) =
      if delivers events id type place ∧ x.commits then committers events id type es ++ [place]
      else committers events id type es := by
  unfold committers
  rw [List.filterMap_append]
  split <;> simp [*]

/-- What holds of the deliveries of one event of one type while no claim runs out. -/
structure Orderly (start : Instant) (timeToLive : Span) (events : List Envelope)
    (id type : String) (w : World) (es : List (Nat × Exchange)) : Prop where
  timeToLive_eq : w.log.timeToLive = timeToLive
  started : start.nanoseconds ≤ w.uptime.nanoseconds
  custody : Custody start (fun place => delivers events id type place = true)
    (w.log.slots.find? ⟨id, "MessageListener." ++ type⟩) (Turns.standings (conducts events) es)
    (committers events id type es)
  holding_eq : ∀ place,
    holding (Turns.talkOf es place) = (Turns.standings (conducts events) es place).holds

section Step

variable {a : Ambient} {events : List Envelope} {id type : String} {start : Instant}
  {w : World} {S : Nat → Standing} {commits : List Nat} {place : Nat} {r : Request}

/-- A request of another delivery's key leaves the custody of this one. -/
theorem Custody.answer_of_other {key : ListenerKey} {mine : Nat → Prop} {own : Option ListenerKey}
    (custody : Custody start mine (w.log.slots.find? key) S commits)
    (may : May own (S place) r) (other : own ≠ some key) (apart : ¬ mine place) (s : Standing) :
    Custody start mine ((w.answer a r).2.log.slots.find? key) (Function.update S place s)
      commits := by
  rw [may.find?_answer_of_ne a w other]
  refine custody.congr fun j own => Function.update_of_ne (fun same => apart ?_) ..
  exact same ▸ own

/-- A request of a delivery of this key is a step in its custody. -/
theorem Custody.answer {key : ListenerKey} {mine : Nat → Prop}
    (custody : Custody start mine (w.log.slots.find? key) S commits)
    (may : May (some key) (S place) r) (own : mine place)
    (started : start.nanoseconds ≤ w.uptime.nanoseconds)
    (lasting : ∀ claimedAt : Instant, start.nanoseconds ≤ claimedAt.nanoseconds →
      w.log.expired claimedAt w.uptime = false) :
    Custody start mine ((w.answer a r).2.log.slots.find? key)
      (Function.update S place ((S place).next ⟨r, (w.answer a r).1⟩))
      (if Exchange.commits ⟨r, (w.answer a r).1⟩ then commits ++ [place] else commits) := by
  generalize stands : S place = s at may
  cases may with
  | quiet h =>
      rw [w.answer_log_of_isQuiet a h, next_of_isQuiet _ _ h, Exchange.commits_of_isQuiet _ h,
        ← stands, Function.update_eq_self]
      exact custody
  | claim h =>
      cases h
      exact custody.claim own stands started lasting
  | store m => exact custody.attempt own stands rfl
  | update m => exact custody.attempt own stands rfl
  | release h =>
      cases h
      exact custody.release own stands
  | record h =>
      cases h
      exact custody.record own stands

end Step

namespace Orderly

variable {start : Instant} {timeToLive : Span} {events : List Envelope} {id type : String}
  {w : World} {es : List (Nat × Exchange)}

theorem initial (events : List Envelope) (id type : String) {w : World}
    (vacant : w.log.slots = ∅) : Orderly w.uptime w.log.timeToLive events id type w [] := by
  refine ⟨rfl, Nat.le_refl _, .vacant ?_ rfl fun j _ => .inl rfl, fun place => rfl⟩
  rw [vacant, Entries.find?_empty]

theorem answer (orderly : Orderly start timeToLive events id type w es) (a : Ambient)
    (lasting : w.uptime.nanoseconds < start.nanoseconds + timeToLive.nanoseconds) {place : Nat}
    {r : Request}
    (may : (conducts events place).may (Turns.standings (conducts events) es place) r) :
    Orderly start timeToLive events id type (w.answer a r).2
      (es ++ [(place, ⟨r, (w.answer a r).1⟩)]) where
  timeToLive_eq := by rw [w.answer_timeToLive, orderly.timeToLive_eq]
  started := by rw [w.answer_uptime]; exact orderly.started
  custody := by
    rw [Turns.standings_append, committers_append]
    by_cases mine : delivers events id type place = true
    · have own_eq := (delivers_iff events id type place).mp mine
      have running : ∀ claimedAt : Instant, start.nanoseconds ≤ claimedAt.nanoseconds →
          w.log.expired claimedAt w.uptime = false := by
        intro claimedAt since
        have started := orderly.started
        simp only [ListenerLog.expired, Instant.since, orderly.timeToLive_eq,
          decide_eq_false_iff_not]
        omega
      simp only [mine, true_and]
      exact orderly.custody.answer (own_eq ▸ may) mine orderly.started running
    · rw [if_neg fun both => mine both.1]
      exact orderly.custody.answer_of_other may (fun own => mine ((delivers_iff ..).mpr own)) mine _
  holding_eq := by
    intro other
    by_cases same : other = place
    · subst same
      rw [Turns.talkOf_append_self, Turns.standings_append, Function.update_self, holding,
        List.foldl_append, ← holding, orderly.holding_eq]
      exact may.hold _
    · rw [Turns.talkOf_append_of_ne _ _ same, Turns.standings_append, Function.update_of_ne same]
      exact orderly.holding_eq other

theorem pass (orderly : Orderly start timeToLive events id type w es) (s : Span) :
    Orderly start timeToLive events id type { w with uptime := w.uptime.after s } es :=
  ⟨orderly.timeToLive_eq, Nat.le_trans orderly.started (Nat.le_add_right ..), orderly.custody,
    orderly.holding_eq⟩

theorem cancel (orderly : Orderly start timeToLive events id type w es) :
    Orderly start timeToLive events id type { w with cancelled := true } es :=
  ⟨orderly.timeToLive_eq, orderly.started, orderly.custody, orderly.holding_eq⟩

end Orderly

/-- What is true of the deliveries of one event of one type at any moment. -/
structure ExactlyOnce (events : List Envelope) (id type : String)
    (t : Turns (Except AppError Unit)) : Prop where
  /-- No two of them are between a granted claim and its record or release. -/
  holder : ∀ i j, delivers events id type i = true → delivers events id type j = true →
    holding (t.talk i) = true → holding (t.talk j) = true → i = j
  commits_le_one : (committers events id type t.exchanges).length ≤ 1
  commits_eq_one :
    (t.world.log.has ⟨id, "MessageListener." ++ type⟩ = true ∨
      ∃ i, delivers events id type i = true ∧ t.outcome? i = some (.done (.ok ()))) →
    (committers events id type t.exchanges).length = 1

/-- The deliveries of some events, before any of them has begun. -/
def deliveries (retries : Nat) (events : List Envelope) (w : World) :
    Turns (Except AppError Unit) where
  world := w
  programs := events.map (Listener.handleEvent retries)

theorem deliveries_follow (retries : Nat) (events : List Envelope) (w : World) :
    (deliveries retries events w).Follow (conducts events) := by
  intro place p found
  simp only [deliveries, List.getElem?_map, Option.map_eq_some_iff] at found
  obtain ⟨e, delivered, rfl⟩ := found
  simp only [conducts, own, delivered, Option.map_some]
  exact Listener.handleEvent_follows retries e

/-- A delivery that has succeeded was the holder of the claim or has found a record. -/
theorem Custody.of_ok {start : Instant} {mine : Nat → Prop} {slot : Option ListenerSlot}
    {S : Nat → Standing} {commits : List Nat} {j : Nat}
    (custody : Custody start mine slot S commits) (own : mine j)
    (ended : Ends (S j) (.done (.ok ()))) : ∃ h, slot = some (.handled h) := by
  generalize stands : S j = s at ended
  cases ended with
  | recorded =>
      obtain ⟨holder, _⟩ := custody.holder own (.inr (.inr stands))
      rw [stands] at holder
      cases holder with
      | recorded h => exact ⟨h, rfl⟩
  | answered =>
      have aside : (S j).Aside slot := by
        cases custody with
        | vacant _ _ others => exact others j own
        | held i _ holder others =>
            refine others j own fun same => ?_
            have active := holder.active
            simp [← same, stands, Active] at active
      rw [stands] at aside
      rcases aside with h | h | h | ⟨_, handled⟩
      · cases h
      · cases h
      · cases h
      · exact handled

theorem Custody.commits_of_handled {start : Instant} {mine : Nat → Prop} {h : HandledEvent}
    {S : Nat → Standing} {commits : List Nat}
    (custody : Custody start mine (some (.handled h)) S commits) : commits.length = 1 := by
  cases custody with
  | vacant empty _ _ => cases empty
  | held i _ holder _ =>
      generalize S i = s at holder
      cases holder
      rfl

theorem Custody.commits_le_one {start : Instant} {mine : Nat → Prop} {slot : Option ListenerSlot}
    {S : Nat → Standing} {commits : List Nat} (custody : Custody start mine slot S commits) :
    commits.length ≤ 1 := by
  cases custody with
  | vacant _ none _ => simp [none]
  | held i _ holder _ =>
      generalize S i = s at holder
      cases holder <;> simp

theorem deliveries_exactlyOnce (a : Ambient) (retries : Nat) (events : List Envelope) (w : World)
    (vacant : w.log.slots = ∅) (schedule : List Turn)
    (lasting : Turns.elapsed schedule < w.log.timeToLive.nanoseconds) (id type : String) :
    ExactlyOnce events id type ((deliveries retries events w).run a Turns.alone schedule) := by
  have limit := Turns.uptime_run a Turns.alone (deliveries retries events w) schedule
  have start : (deliveries retries events w).world = w := rfl
  -- The claims last as long as the schedule does, not longer: the invariant stands up to that time.
  obtain ⟨follow, inv⟩ := Turns.run_keeps (a := a) (c := conducts events)
    (I := fun w' es =>
      w'.uptime.nanoseconds < w.uptime.nanoseconds + w.log.timeToLive.nanoseconds →
        Orderly w.uptime w.log.timeToLive events id type w' es)
    (deliveries_follow retries events w) (fun _ => .initial events id type vacant)
    (fun w' es place r inv may before => by
      rw [World.answer_uptime] at before
      exact (inv before).answer a before may)
    (fun w' es s inv before => (inv (by simp only [Instant.after] at before; omega)).pass s)
    (fun w' es inv before => (inv before).cancel) schedule
  have orderly := inv (by rw [limit, start]; omega)
  refine ⟨?_, orderly.custody.commits_le_one, ?_⟩
  · intro i j mine other holds holds'
    rw [Turns.talk, orderly.holding_eq] at holds holds'
    obtain ⟨_, others⟩ := orderly.custody.holder mine (active_of_holds holds)
    by_contra ne
    exact (others j other (Ne.symm ne)).not_active (active_of_holds holds')
  · intro settled
    generalize (deliveries retries events w).run a Turns.alone schedule = t at *
    have handled : ∃ h, t.world.log.slots.find? ⟨id, "MessageListener." ++ type⟩ =
        some (.handled h) := by
      rcases settled with has | ⟨i, mine, ok⟩
      · exact ListenerLog.has_iff.mp has
      · exact orderly.custody.of_ok mine (follow.ends ok)
    obtain ⟨h, found⟩ := handled
    have custody := orderly.custody
    rw [found] at custody
    exact custody.commits_of_handled

/-- An event is delivered again while its first delivery is at work. -/
theorem deliveries_exactlyOnce_twice :
    let m := Message.mobileTerminated ⟨⟨1⟩, "+1000", "+2000", "hi", .epoch⟩ .epoch
    let w : World := { messages := (∅ : MessageStore).put m }
    let e := Envelope.ofPayload ⟨7⟩ .epoch "phone" (.phoneSending (.ofMessage m))
    let a : Ambient := ⟨fun _ => .epoch, fun n => ⟨n⟩⟩
    let schedule := [.go 0, .go 0, .go 1, .pass (.ofMilliseconds 20), .go 0, .go 0, .go 0, .go 1]
    w.log.slots = ∅ ∧ Turns.elapsed schedule < w.log.timeToLive.nanoseconds ∧
      ExactlyOnce [e, e] e.id e.type
        ((deliveries 3 [e, e] w).run a Turns.alone schedule) := by
  intro m w e a schedule
  have lasting : Turns.elapsed schedule < w.log.timeToLive.nanoseconds := by decide
  exact ⟨rfl, lasting, deliveries_exactlyOnce a 3 [e, e] w rfl schedule lasting e.id e.type⟩

end SmsTracking
